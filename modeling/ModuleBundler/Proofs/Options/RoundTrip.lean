import ModuleBundler.Options.Json
import ModuleBundler.Proofs.Json.Record
import ModuleBundler.Proofs.Json.RoundTrip

/-!
# Options are read back

Options are what their text spells (`ofJson?_toJson`), so that the text in a cache key tells them apart
(`jsonText_injective`). Overrides are what their text spells as well, whichever of them are given.
-/

namespace ModuleBundler

theorem asList?_textsToJson (texts : List String) :
    (textsToJson texts).asList? Json.asText? = some texts :=
  Json.asList?_ofList fun s _ => Json.asText?_ofText s

theorem toNat_bounds (n : UInt64) : 0 ≤ (n.toNat : Int) ∧ (n.toNat : Int) < UInt64.size :=
  ⟨Int.natCast_nonneg _, Int.ofNat_lt.mpr n.toNat_lt⟩

theorem asUInt64?_ofNat (n : UInt64) : (Json.ofNat n.toNat).asUInt64? = some n := by
  rw [Json.ofNat, Json.asUInt64?, if_pos (toNat_bounds n), Int.toNat_natCast, UInt64.ofNat_toNat]

theorem Path.ofJson?_ofText (p : Path) : Path.ofJson? (.ofText p.text) = some p := rfl

theorem Target.ofJson?_toJson (t : Target) : Target.ofJson? t.toJson = some t := ofName?_name t

namespace Options

/-- **Options are read back** from their object. -/
theorem ofJson?_toJson (options : Options) : ofJson? options.toJson = some options := by
  obtain ⟨extensions, maxDepth, ignorePatterns, minify, comments, target, hydrate, root⟩ := options
  cases root with
  | none =>
    rw [ofJson?, toJson, Json.fields?_ofMembers 0 (by simp [optionNames]) (by simp)]
    simp [Json.fieldOr?, List.lookup_cons, asList?_textsToJson, asUInt64?_ofNat, Target.ofJson?_toJson,
      Json.asBool?]
  | some root =>
    rw [ofJson?, toJson, Json.fields?_ofMembers 0 (by simp [optionNames]) (by simp)]
    simp [Json.fieldOr?, List.lookup_cons, asList?_textsToJson, asUInt64?_ofNat, Target.ofJson?_toJson,
      Json.asBool?, Json.asNullable?_ofText (Path.ofJson?_ofText root)]

/-- Different options have different texts. -/
theorem jsonText_injective {a b : Options} (h : a.jsonText = b.jsonText) : a = b := by
  have h := congrArg ofJson? (Json.print_injective h)
  rw [ofJson?_toJson, ofJson?_toJson] at h
  exact Option.some.inj h

end Options

namespace Overrides

/-- **Overrides are read back** from their object, which has a member for each value that is given. -/
theorem ofJson?_toJson (overrides : Overrides) : ofJson? overrides.toJson = some overrides := by
  have htexts : ∀ texts, textsToJson texts ≠ .null ∧
      (textsToJson texts).asList? Json.asText? = some texts :=
    fun texts => ⟨Json.noConfusion, asList?_textsToJson texts⟩
  have hdepth : ∀ n : UInt64, Json.ofNat n.toNat ≠ .null ∧ (Json.ofNat n.toNat).asUInt64? = some n :=
    fun n => ⟨Json.noConfusion, asUInt64?_ofNat n⟩
  have hbool : ∀ b, Json.bool b ≠ .null ∧ (Json.bool b).asBool? = some b :=
    fun b => ⟨Json.noConfusion, rfl⟩
  have htarget : ∀ t : Target, t.toJson ≠ .null ∧ Target.ofJson? t.toJson = some t :=
    fun t => ⟨Json.noConfusion, Target.ofJson?_toJson t⟩
  have hroot : ∀ p : Path, Json.ofText p.text ≠ .null ∧ Path.ofJson? (.ofText p.text) = some p :=
    fun p => ⟨Json.noConfusion, Path.ofJson?_ofText p⟩
  unfold ofJson? toJson
  simp only
  rw [Json.fields?_ofMembers_of_sublist]
  · simp only [Option.bind_eq_bind, Option.bind_some]
    rw [Json.fieldOr?_given (o := overrides.extensions) ?_ htexts,
      Json.fieldOr?_given (o := overrides.maxDepth) ?_ hdepth,
      Json.fieldOr?_given (o := overrides.ignorePatterns) ?_ htexts,
      Json.fieldOr?_given (o := overrides.minify) ?_ hbool,
      Json.fieldOr?_given (o := overrides.comments) ?_ hbool,
      Json.fieldOr?_given (o := overrides.target) ?_ htarget,
      Json.fieldOr?_given (o := overrides.hydrate) ?_ hbool,
      Json.fieldOr?_given (o := overrides.root) ?_ hroot]
    · rfl
    -- each name is looked up among members of which one at most has this name
    all_goals simp [List.lookup_append, Json.lookup_given]
  · decide
  · simp only [List.map_append]
    have h := fun name value => Json.names_given name value
    exact (((((((h _ _).append (h _ _)).append (h _ _)).append (h _ _)).append (h _ _)).append
      (h _ _)).append (h _ _)).append (h _ _)

end Overrides

end ModuleBundler
