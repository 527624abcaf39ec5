import ModuleBundler.Proofs.Bundle.RoundTrip
import ModuleBundler.Proofs.Options.RoundTrip
import ModuleBundler.Reference.Basic
import Mathlib.Logic.Function.Basic

/-!
# Records are read back from their texts

A record is written as the compact text of its object, and a text is read as JSON first and as a record
then. What is written for a bundle, for options, for overrides, for a set of dependencies or for a reference
is read as this very record (`texts_read_back`): strings hold any characters, paths keep their spelling, a set
keeps its order, and what is absent stays absent. So the text of a record tells it from every other one.
-/

namespace ModuleBundler

/-- A reference is read back from its object. -/
theorem Reference.ofJson?_toJson (r : Reference) : ofJson? r.toJson = some r := by
  obtain ⟨specifier, kind⟩ := r
  have hkind : kindOfJson? (.ofText kind.name) = some kind := by cases kind <;> decide
  rw [ofJson?, toJson, Json.fields?_ofMembers 2 (by simp) (by simp)]
  simp [Json.field?, List.lookup_cons, Json.asText?_ofText, hkind]

/-- A way to write the records of a type as JSON, and a way to read them, by which no record is lost or
changed in its text. -/
structure RoundTrips {α : Type} (write : α → Json) (read : Json → Option α) : Prop where
  /-- The text of a record is read as this record. -/
  parse_print : ∀ a, (Json.parse? (write a).print).bind read = some a
  /-- Two records with one text are the same. -/
  print_injective : Function.Injective fun a => (write a).print

/-- Records are read back from their texts if they are read back from their objects. -/
theorem roundTrips_of_read_write {α : Type} {write : α → Json} {read : Json → Option α}
    (h : ∀ a, read (write a) = some a) : RoundTrips write read where
  parse_print a := by rw [Json.parse?_print, Option.bind_some, h]
  print_injective a b hab := by
    have hread := congrArg read (Json.print_injective hab)
    rw [h, h] at hread
    exact Option.some.inj hread

/-- **What is written is read back**: every bundle, all options and overrides, every set of dependencies and
every reference is what its text spells, and no other one has this text. -/
theorem texts_read_back :
    RoundTrips Bundle.toJson Bundle.ofJson? ∧ RoundTrips Options.toJson Options.ofJson? ∧
      RoundTrips Overrides.toJson Overrides.ofJson? ∧
      RoundTrips DependencySet.toJson DependencySet.ofJson? ∧
      RoundTrips Reference.toJson Reference.ofJson? :=
  ⟨roundTrips_of_read_write Bundle.ofJson?_toJson, roundTrips_of_read_write Options.ofJson?_toJson,
    roundTrips_of_read_write Overrides.ofJson?_toJson,
    roundTrips_of_read_write DependencySet.ofJson?_toJson,
    roundTrips_of_read_write Reference.ofJson?_toJson⟩

end ModuleBundler
