import ModuleBundler.Table
import Mathlib.Data.List.Perm.Basic

/-!
# What tables hold

As long as no key stands in a table twice (`Distinct`), what is found in it does not depend on the order of its
entries (`get?_perm`). Writing and dropping keep this up, and they put nothing into a table but the entry that is
written.
-/

namespace ModuleBundler.Table

variable {κ ν : Type} [DecidableEq κ] {table other : Table κ ν} {key : κ} {value : ν}

/-! ### Entries -/

theorem mem_of_get?_eq_some (h : get? table key = some value) : (key, value) ∈ table := by
  obtain ⟨entry, he, rfl⟩ := Option.map_eq_some_iff.mp h
  have hk := List.find?_some he
  obtain rfl : entry.1 = key := by simpa using hk
  exact List.mem_of_find?_eq_some he

theorem mem_of_mem_put {entry : κ × ν} (h : entry ∈ put table key value) :
    entry = (key, value) ∨ entry ∈ table := by
  induction table with
  | nil => exact .inl (List.mem_singleton.mp h)
  | cons first table ih =>
    rw [put] at h
    split at h
    · rcases List.mem_cons.mp h with h | h
      · exact .inl h
      · exact .inr (List.mem_cons_of_mem _ h)
    · rcases List.mem_cons.mp h with rfl | h
      · exact .inr List.mem_cons_self
      · exact (ih h).imp_right (List.mem_cons_of_mem _)

theorem mem_of_mem_drop {entry : κ × ν} (h : entry ∈ drop table key) : entry ∈ table := by
  induction table with
  | nil => exact h
  | cons first table ih =>
    rw [drop] at h
    split at h
    · exact List.mem_cons_of_mem _ (ih h)
    · rcases List.mem_cons.mp h with rfl | h
      · exact List.mem_cons_self
      · exact List.mem_cons_of_mem _ (ih h)

/-- What is found in the first of two tables hides what is found in the second one. -/
theorem get?_append (table other : Table κ ν) (key : κ) :
    get? (table ++ other) key = (get? table key).or (get? other key) := by
  induction table with
  | nil => rfl
  | cons entry table ih =>
    rw [List.cons_append, get?_cons, get?_cons, ih]
    split <;> rfl

theorem has_eq_true_iff : has table key = true ↔ key ∈ table.map Prod.fst := by
  induction table with
  | nil => simp [has]
  | cons entry table ih =>
    rw [has, get?_cons, List.map_cons, List.mem_cons]
    by_cases h : entry.1 = key
    · simp [h]
    · rw [if_neg h, ← has, ih]
      exact (or_iff_right (Ne.symm h)).symm

/-- What is dropped need not be written before. -/
theorem drop_put (table : Table κ ν) (key : κ) (value : ν) : drop (put table key value) key = drop table key := by
  induction table with
  | nil => simp [put, drop]
  | cons entry table ih =>
    by_cases hk : entry.1 = key
    · simp [put, drop, hk]
    · simp [put, drop, hk, ih]

theorem drop_eq_filter (table : Table κ ν) (key : κ) :
    drop table key = table.filter fun entry => decide (entry.1 ≠ key) := by
  induction table with
  | nil => rfl
  | cons entry table ih => by_cases h : entry.1 = key <;> simp [drop, h, ih]

theorem drop_of_get?_eq_none (h : get? table key = none) : drop table key = table := by
  induction table with
  | nil => rfl
  | cons entry table ih =>
    rw [get?_cons] at h
    split_ifs at h with hk
    rw [drop, if_neg hk, ih h]

/-! ### Sizes -/

theorem length_put (table : Table κ ν) (key : κ) (value : ν) :
    (put table key value).length = if has table key then table.length else table.length + 1 := by
  induction table with
  | nil => rfl
  | cons entry table ih =>
    rw [put, has, get?_cons]
    by_cases hk : entry.1 = key
    · simp [hk]
    · rw [if_neg hk, if_neg hk, List.length_cons, ih, has]
      split <;> rfl

theorem length_drop_le (table : Table κ ν) (key : κ) : (drop table key).length ≤ table.length := by
  rw [drop_eq_filter]
  exact List.length_filter_le _ _

/-! ### Tables in another order -/

/-- Whether no key stands in a table twice. -/
def Distinct (table : Table κ ν) : Prop := (table.map Prod.fst).Nodup

omit [DecidableEq κ] in
theorem Distinct.perm (hd : Distinct table) (h : table.Perm other) : Distinct other :=
  (h.map Prod.fst).nodup_iff.mp hd

omit [DecidableEq κ] in
theorem Distinct.filter (hd : Distinct table) (p : κ × ν → Bool) : Distinct (table.filter p) :=
  hd.sublist (List.filter_sublist.map _)

omit [DecidableEq κ] in
/-- The keys behind the first one are other keys. -/
theorem Distinct.ne_first {first entry : κ × ν} (hd : Distinct (first :: table)) (h : entry ∈ table) :
    entry.1 ≠ first.1 := by
  intro he
  have hmem := List.mem_map_of_mem (f := Prod.fst) h
  rw [he] at hmem
  exact (List.nodup_cons.mp hd).1 hmem

omit [DecidableEq κ] in
theorem Distinct.tail {first : κ × ν} (hd : Distinct (first :: table)) : Distinct table :=
  (List.nodup_cons.mp hd).2

theorem drop_eq_self (h : ∀ entry ∈ table, entry.1 ≠ key) : drop table key = table := by
  rw [drop_eq_filter]
  exact List.filter_eq_self.mpr fun entry he => decide_eq_true (h entry he)

/-- The values of a table are found under their keys. -/
theorem Distinct.get?_eq_some_iff (hd : Distinct table) :
    get? table key = some value ↔ (key, value) ∈ table := by
  refine ⟨mem_of_get?_eq_some, fun h => ?_⟩
  induction table with
  | nil => cases h
  | cons entry table ih =>
    rw [get?_cons]
    rcases List.mem_cons.mp h with rfl | h
    · exact if_pos rfl
    · rw [if_neg (hd.ne_first h).symm, ih hd.tail h]

/-- What is found in a table does not depend on its order. -/
theorem get?_perm (hd : Distinct table) (h : table.Perm other) (key : κ) :
    get? table key = get? other key := by
  ext value
  rw [hd.get?_eq_some_iff, (hd.perm h).get?_eq_some_iff, h.mem_iff]

/-- Up to order, an entry that is written stands after the other ones. -/
theorem put_perm (hd : Distinct table) (key : κ) (value : ν) :
    (put table key value).Perm (drop table key ++ [(key, value)]) := by
  induction table with
  | nil => exact List.Perm.refl _
  | cons entry table ih =>
    by_cases hk : entry.1 = key
    · subst hk
      rw [put, if_pos rfl, drop, if_pos rfl, drop_eq_self fun e => hd.ne_first]
      exact (List.perm_append_singleton _ _).symm
    · rw [put, if_neg hk, drop, if_neg hk]
      exact (ih hd.tail).cons entry

/-- An entry may be written after the other ones. -/
theorem Distinct.drop_concat (hd : Distinct table) (key : κ) (value : ν) :
    Distinct (drop table key ++ [(key, value)]) := by
  rw [drop_eq_filter]
  unfold Distinct
  rw [List.map_append]
  refine List.nodup_append.mpr ⟨hd.filter _, List.pairwise_singleton _ _, ?_⟩
  rintro k hk k' hk' rfl
  obtain ⟨entry, hentry, rfl⟩ := List.mem_map.mp hk
  exact of_decide_eq_true (List.mem_filter.mp hentry).2 (List.mem_singleton.mp hk')

theorem Distinct.put (hd : Distinct table) (key : κ) (value : ν) : Distinct (put table key value) :=
  (hd.drop_concat key value).perm (put_perm hd key value).symm

/-! ### Tables with other values -/

section

variable {μ : Type} (f : ν → μ)

theorem get?_map (table : Table κ ν) (key : κ) :
    get? (table.map fun entry => (entry.1, f entry.2)) key = (get? table key).map f := by
  induction table with
  | nil => rfl
  | cons entry table ih => by_cases h : entry.1 = key <;> simp [get?_cons, h, ih]

theorem drop_map (table : Table κ ν) (key : κ) :
    drop (table.map fun entry => (entry.1, f entry.2)) key =
      (drop table key).map fun entry => (entry.1, f entry.2) := by
  induction table with
  | nil => rfl
  | cons entry table ih => by_cases h : entry.1 = key <;> simp [drop, h, ih]

end

end ModuleBundler.Table
