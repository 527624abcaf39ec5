import ModuleBundler.Proofs.Cache.Contents

/-!
# What a look-up finds

A value that a look-up finds is found again after any operation on the cache, unless its own key was removed
or stored anew, or all keys were. Making room for another key is no danger to it where the cache has no
capacity. The other way round, a key that was removed stays without a value until a value is stored under
it.
-/

namespace ModuleBundler

namespace Table

variable {κ ν : Type} [DecidableEq κ]

/-- A value that stays in a table is found there. -/
theorem get?_filter_of_eq_some {p : κ × ν → Bool} {table : Table κ ν} {key : κ} {value : ν}
    (h : get? table key = some value) (hp : p (key, value) = true) :
    get? (table.filter p) key = some value := by
  induction table with
  | nil => cases h
  | cons entry table ih =>
    rw [get?_cons] at h
    split_ifs at h with hk
    · obtain rfl := hk
      obtain rfl := Option.some.inj h
      rw [List.filter_cons_of_pos hp, get?_cons, if_pos rfl]
    · by_cases he : p entry = true
      · rw [List.filter_cons_of_pos he, get?_cons, if_neg hk, ih h]
      · rw [List.filter_cons_of_neg he, ih h]

theorem ne_of_mem_drop {table : Table κ ν} {key : κ} {entry : κ × ν} (h : entry ∈ drop table key) :
    entry.1 ≠ key := by
  induction table with
  | nil => cases h
  | cons first table ih =>
    rw [drop] at h
    split_ifs at h with hk
    · exact ih h
    · rcases List.mem_cons.mp h with rfl | h
      · exact hk
      · exact ih h

end Table

namespace Cache

variable {κ ν : Type} [DecidableEq κ] {cache : Cache κ ν} {key k : κ} {value : ν}

/-- Whether a look-up finds `value` under `key`. -/
def Finds (cache : Cache κ ν) (key : κ) (value : ν) : Prop := (cache.get key).1 = some value

/-- A look-up finds the value of the entry of its key, unless the entry has elapsed. -/
theorem finds_iff : cache.Finds key value ↔
    ∃ entry, cache.entries.get? key = some entry ∧ entry.hasElapsed = false ∧ entry.value = value := by
  unfold Finds get expire
  cases he : cache.entries.get? key with
  | none => simp [he]
  | some entry =>
    cases hl : entry.hasElapsed with
    | true => simp [hl, Table.get?_drop]
    | false => simp [hl, he]

/-- A look-up finds what the entry of its key tells, and only this entry. -/
theorem Finds.of_get?_eq {other : Cache κ ν} (h : cache.Finds key value)
    (he : other.entries.get? key = cache.entries.get? key) : other.Finds key value := by
  rw [finds_iff] at h ⊢
  rwa [he]

/-! ### What keeps a value -/

theorem Finds.get (h : cache.Finds key value) (k : κ) : (cache.get k).2.Finds key value := by
  rw [finds_iff] at h ⊢
  obtain ⟨entry, he, hl, hv⟩ := h
  have hexp : (cache.expire k).entries.get? key = some entry := by
    unfold expire
    split_ifs with hk
    · -- an entry that has elapsed is the entry of another key
      have hne : k ≠ key := by
        rintro rfl
        simp [he, hl] at hk
      rw [Table.get?_drop, if_neg hne, he]
    · exact he
  unfold Cache.get
  simp only
  split
  next other ho =>
    by_cases hk : k = key
    · subst hk
      obtain rfl := Option.some.inj (hexp.symm.trans ho)
      exact ⟨{ entry with lastUse := (cache.expire k).clock + 1 },
        by rw [Table.get?_put, if_pos rfl], hl, hv⟩
    · exact ⟨entry, by rw [Table.get?_put, if_neg hk, hexp], hl, hv⟩
  next => exact ⟨entry, hexp, hl, hv⟩

theorem Finds.remove (h : cache.Finds key value) (hk : k ≠ key) : (cache.remove k).2.Finds key value :=
  h.of_get?_eq (by rw [Cache.remove, Table.get?_drop, if_neg hk])

theorem Finds.prune (h : cache.Finds key value) : cache.prune.2.Finds key value := by
  rw [finds_iff] at h ⊢
  obtain ⟨entry, he, hl, hv⟩ := h
  exact ⟨entry, Table.get?_filter_of_eq_some he (by simp [hl]), hl, hv⟩

theorem Finds.insertFor (h : cache.Finds key value) (hc : cache.config.capacity = none) (hk : k ≠ key)
    (lifetime : Option Nat) (v : ν) : (cache.insertFor lifetime k v).Finds key value := by
  refine h.of_get?_eq ?_
  rw [Cache.insertFor, if_neg (by simp [hc])]
  simp only [makeRoom, hc]
  rw [Table.get?_put, if_neg hk]

/-- What is stored for a time that has not elapsed is found. -/
theorem finds_insertFor (hc : cache.config.capacity = none) {lifetime : Option Nat} (hl : lifetime ≠ some 0)
    (key : κ) (value : ν) : (cache.insertFor lifetime key value).Finds key value := by
  rw [finds_iff, Cache.insertFor, if_neg (by simp [hc])]
  simp only [makeRoom, hc]
  exact ⟨_, by rw [Table.get?_put, if_pos rfl], by simpa [CacheEntry.hasElapsed] using hl, rfl⟩

theorem not_stores_remove : ¬ (cache.remove key).2.Stores key value := by
  rintro ⟨entry, h, -⟩
  exact Table.ne_of_mem_drop h rfl

/-! ### Limits -/

theorem config_get (cache : Cache κ ν) (key : κ) : (cache.get key).2.config = cache.config := by
  unfold Cache.get expire
  simp only
  split <;> split_ifs <;> rfl

theorem config_insertFor (hc : cache.config.capacity = none) (lifetime : Option Nat) (key : κ) (value : ν) :
    (cache.insertFor lifetime key value).config = cache.config := by
  rw [Cache.insertFor, if_neg (by simp [hc])]
  simp only [makeRoom, hc]

end Cache

end ModuleBundler
