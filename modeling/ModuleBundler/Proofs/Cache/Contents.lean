import ModuleBundler.Cache.Basic
import ModuleBundler.Proofs.Table

/-!
# What a cache may hold

Looking up, making room, pruning, removing and clearing put nothing into a cache, and storing puts in one
value under one key. So a value that is found was stored under its key before, and nothing else has to be
known about which entries are still there.
-/

namespace ModuleBundler

namespace Cache

variable {κ ν : Type} [DecidableEq κ] {cache : Cache κ ν} {key k : κ} {value v : ν}

/-- Whether `value` is stored under `key`. -/
def Stores (cache : Cache κ ν) (key : κ) (value : ν) : Prop :=
  ∃ entry, (key, entry) ∈ cache.entries ∧ entry.value = value

omit [DecidableEq κ] in
theorem not_stores_empty {config : CacheConfig} : ¬ (empty config : Cache κ ν).Stores key value := by
  rintro ⟨entry, h, -⟩
  cases h

omit [DecidableEq κ] in
/-- A cache with some of the entries of another one stores nothing else. -/
theorem Stores.of_subset {other : Cache κ ν} (h : other.Stores k v)
    (he : ∀ entry ∈ other.entries, entry ∈ cache.entries) : cache.Stores k v := by
  obtain ⟨entry, hm, hv⟩ := h
  exact ⟨entry, he _ hm, hv⟩

/-! ### Looking up -/

theorem Stores.of_expire (h : (cache.expire key).Stores k v) : cache.Stores k v := by
  unfold expire at h
  split at h
  · exact h.of_subset fun _ => Table.mem_of_mem_drop
  · exact h

/-- What is found is stored. -/
theorem stores_of_get (h : (cache.get key).1 = some value) : cache.Stores key value := by
  unfold get at h
  simp only at h
  split at h
  next entry he =>
    have hs : (cache.expire key).Stores key value :=
      ⟨entry, Table.mem_of_get?_eq_some he, Option.some.inj h⟩
    exact hs.of_expire
  next => cases h

theorem Stores.of_get (h : (cache.get key).2.Stores k v) : cache.Stores k v := by
  unfold get at h
  simp only at h
  split at h
  next entry he =>
    obtain ⟨other, hm, hv⟩ := h
    -- the entry that was found is written anew, with the same value
    rcases Table.mem_of_mem_put hm with hm | hm
    · obtain ⟨rfl, rfl⟩ := Prod.mk.inj hm
      have hs : (cache.expire k).Stores k v := ⟨entry, Table.mem_of_get?_eq_some he, hv⟩
      exact hs.of_expire
    · have hs : (cache.expire key).Stores k v := ⟨other, hm, hv⟩
      exact hs.of_expire
  next =>
    have hs : (cache.expire key).Stores k v := h
    exact hs.of_expire

/-! ### Making room -/

theorem Stores.of_evict (h : cache.evict.Stores k v) : cache.Stores k v := by
  unfold evict at h
  split at h
  · exact h
  · exact h.of_subset fun _ => Table.mem_of_mem_drop

theorem Stores.of_evictBelow {capacity times : Nat} (h : (evictBelow capacity times cache).Stores k v) :
    cache.Stores k v := by
  induction times generalizing cache with
  | zero => exact h
  | succ times ih =>
    rw [evictBelow] at h
    split at h
    · exact (ih h).of_evict
    · exact h

theorem Stores.of_makeRoom (h : (cache.makeRoom key).Stores k v) : cache.Stores k v := by
  unfold makeRoom at h
  split at h
  · exact h
  · split at h
    · exact h
    · exact h.of_evictBelow

/-! ### Storing and removing -/

/-- Storing a value stores nothing else. -/
theorem Stores.of_insertFor {lifetime : Option Nat} (h : (cache.insertFor lifetime key value).Stores k v) :
    (k = key ∧ v = value) ∨ cache.Stores k v := by
  unfold insertFor at h
  split at h
  · exact .inr h
  · obtain ⟨entry, hm, hv⟩ := h
    rcases Table.mem_of_mem_put hm with hm | hm
    · obtain ⟨rfl, rfl⟩ := Prod.mk.inj hm
      exact .inl ⟨rfl, hv.symm⟩
    · have hs : (cache.makeRoom key).Stores k v := ⟨entry, hm, hv⟩
      exact .inr hs.of_makeRoom

theorem Stores.of_remove (h : (cache.remove key).2.Stores k v) : cache.Stores k v :=
  h.of_subset fun _ => Table.mem_of_mem_drop

omit [DecidableEq κ] in
theorem not_stores_clear : ¬ cache.clear.Stores k v := by
  rintro ⟨entry, h, -⟩
  cases h

omit [DecidableEq κ] in
theorem Stores.of_prune (h : cache.prune.2.Stores k v) : cache.Stores k v :=
  h.of_subset fun _ hm => (List.mem_filter.mp hm).1

end Cache

end ModuleBundler
