import ModuleBundler.Json.Record
import Mathlib.Data.List.Basic

/-!
# Records are taken out of JSON again

A record that was written with its own names has all its members among them, each once. What is read then
is the members as they were written.
-/

namespace ModuleBundler.Json

theorem asText?_ofText (s : String) : (ofText s).asText? = some s := rfl

theorem asNullable?_eq_some {α : Type} {read : Json → Option α} {v : Json} {a : α} (hn : v ≠ .null)
    (h : read v = some a) : v.asNullable? read = some (some a) := by
  have hv : v.asNullable? read = (read v).map some := by
    rw [asNullable?]
    exact hn
  rw [hv, h, Option.map_some]

theorem asNullable?_ofText {α : Type} {read : Json → Option α} {s : String} {a : α}
    (h : read (ofText s) = some a) : (ofText s).asNullable? read = some (some a) :=
  asNullable?_eq_some Json.noConfusion h

/-- A list is read back if each of its elements is. -/
theorem asList?_ofList {α : Type} {read : Json → Option α} {write : α → Json} {xs : List α}
    (h : ∀ x ∈ xs, read (write x) = some x) : (ofList write xs).asList? read = some xs := by
  unfold ofList asList?
  simp only
  induction xs with
  | nil => rfl
  | cons x xs ih =>
    obtain ⟨hx, hxs⟩ := List.forall_mem_cons.mp h
    simp [hx, ih hxs]

/-- The members of an object whose names are among `names`, each once, are the fields. -/
theorem fields?_ofMembers {names : List String} {members : List (String × Json)} (least : Nat)
    (hn : ∀ m ∈ members, names.contains m.1 = true) (hd : (members.map (·.1)).Nodup) :
    (ofMembers members).fields? names least = some members := by
  have hmap : ((members.map fun m => (some m.1, m.2)).mapM fun m : Option String × Json =>
      m.1.map fun name => (name, m.2)) = some members := by
    clear hn hd
    induction members with
    | nil => rfl
    | cons m members ih => simp [ih]
  unfold ofMembers fields?
  simp only [hmap, Option.bind_eq_bind, Option.bind_some]
  rw [List.filter_eq_self.mpr hn, if_pos hd]

/-- The members of an object whose names are some of `names`, in the order of these, are the fields. -/
theorem fields?_ofMembers_of_sublist {names : List String} {members : List (String × Json)} (least : Nat)
    (hd : names.Nodup) (h : (members.map (·.1)).Sublist names) :
    (ofMembers members).fields? names least = some members := by
  refine fields?_ofMembers least (fun m hm => ?_) (h.nodup hd)
  exact List.contains_iff_mem.mpr (h.subset (List.mem_map_of_mem hm))

/-! ### Members that are written only where there is a value -/

section

variable (name : String) (value : Option Json)

theorem names_given : ((value.toList.map fun v => (name, v)).map (·.1)).Sublist [name] := by
  cases value with
  | none => exact List.nil_sublist _
  | some v => exact List.Sublist.refl _

theorem lookup_given (k : String) :
    (value.toList.map fun v => (name, v)).lookup k = if k = name then value else none := by
  cases value with
  | none => simp
  | some v => by_cases h : k = name <;> simp [List.lookup_cons, h, beq_false_of_ne]

end

/-- A field that is written only where there is a value is read back. No value is written as `null`, which
would be read as no value. -/
theorem fieldOr?_given {α : Type} {fields : List (String × Json)} {name : String} {read : Json → Option α}
    {write : α → Json} {o : Option α} (h : fields.lookup name = o.map write)
    (hr : ∀ a, write a ≠ .null ∧ read (write a) = some a) :
    fieldOr? fields name none (asNullable? read) = some o := by
  rw [fieldOr?, h]
  cases o with
  | none => rfl
  | some a => exact asNullable?_eq_some (hr a).1 (hr a).2

end ModuleBundler.Json
