import ModuleBundler.Proofs.Cache.Order
import ModuleBundler.Proofs.Cache.Sharing

/-!
# A cache is a list of pairs by their last use

A cache can be described without a clock: it is a list of pairs, the one that was stored or found longest ago
first. A pair that is found goes to the end, a new pair comes to the end, and where a full list gets a new key
it loses its first pair (`RecencyList`).

Whatever is done with a cache, and through whichever clones, every answer, every size and every count is that
of the list (`observe_eq_recencyList`). What carries the proof is that the list holds the entries in the order
of their last uses, which are all different (`Mirrors`).
-/

namespace ModuleBundler

variable {κ ν : Type} [DecidableEq κ]

/-! ### Lists by last use -/

/-- What is kept under a key. -/
structure Kept (ν : Type) where
  value : ν
  lifetime : Option Nat

/-- A cache as a list of pairs. -/
structure RecencyList (κ ν : Type) where
  config : CacheConfig
  /-- The pairs, the one that was stored or found longest ago first. -/
  pairs : Table κ (Kept ν) := []
  stats : CacheStats := {}

namespace RecencyList

/-- Looks a key up: a pair that has not elapsed goes to the end, and one that has elapsed is dropped. -/
def get (list : RecencyList κ ν) (key : κ) : Option ν × RecencyList κ ν :=
  match list.pairs.get? key with
  | none => (none, { list with stats := { list.stats with misses := list.stats.misses + 1 } })
  | some kept =>
    if kept.lifetime = some 0 then
      (none, { list with
        pairs := list.pairs.drop key
        stats := { list.stats with
          misses := list.stats.misses + 1, expirations := list.stats.expirations + 1 } })
    else
      (some kept.value, { list with
        pairs := list.pairs.drop key ++ [(key, kept)]
        stats := { list.stats with hits := list.stats.hits + 1 } })

/-- Stores a pair at the end. A full list loses its first pair if the key is new to it, and a list without
room for any pair stays empty. -/
def insertFor (list : RecencyList κ ν) (lifetime : Option Nat) (key : κ) (value : ν) : RecencyList κ ν :=
  if list.config.capacity = some 0 then list
  else if list.pairs.has key then
    { list with pairs := list.pairs.drop key ++ [(key, ⟨value, lifetime⟩)] }
  else if list.config.capacity = some list.pairs.length then
    { list with
      pairs := list.pairs.tail ++ [(key, ⟨value, lifetime⟩)]
      stats := { list.stats with evictions := list.stats.evictions + 1 } }
  else { list with pairs := list.pairs ++ [(key, ⟨value, lifetime⟩)] }

/-- Drops the pairs that have elapsed. -/
def prune (list : RecencyList κ ν) : Nat × RecencyList κ ν :=
  let elapsed := list.pairs.countP fun p => p.2.lifetime = some 0
  (elapsed, { list with
    pairs := list.pairs.filter fun p => p.2.lifetime ≠ some 0
    stats := { list.stats with expirations := list.stats.expirations + elapsed } })

/-- The answer to a call, and the list after it. -/
def perform (list : RecencyList κ ν) : CacheCall κ ν → CacheAnswer ν × RecencyList κ ν
  | .get key => (.value (list.get key).1, (list.get key).2)
  | .insert key value => (.done, list.insertFor list.config.lifetime key value)
  | .insertFor lifetime key value => (.done, list.insertFor (some lifetime) key value)
  | .remove key =>
    (.value ((list.pairs.get? key).map (·.value)), { list with pairs := list.pairs.drop key })
  | .clear => (.done, { list with pairs := [] })
  | .prune => (.count list.prune.1, list.prune.2)

/-- One event: what is seen of it, and the list after it. Clones and the order of a table mean nothing to a
list. -/
def step (list : RecencyList κ ν) : CacheEvent κ ν → Option (CacheView ν) × RecencyList κ ν
  | .call _ c =>
    let (answer, list) := list.perform c
    (some ⟨answer, list.pairs.length, list.stats⟩, list)
  | .clone _ _ => (none, list)
  | .elapse keys => (none, { list with
      pairs := list.pairs.map fun p => (p.1, { p.2 with lifetime := remaining keys p.1 p.2.lifetime }) })
  | .rearrange _ => (none, list)

end RecencyList

/-! ### What a cache does at a call -/

namespace Cache

variable {cache : Cache κ ν} {key : κ} {entry : CacheEntry ν}

theorem get_of_absent (he : cache.entries.get? key = none) :
    cache.get key = (none, { cache with
      clock := cache.clock + 1
      stats := { cache.stats with misses := cache.stats.misses + 1 } }) := by
  simp [get, expire, he]

theorem get_of_elapsed (he : cache.entries.get? key = some entry) (hl : entry.hasElapsed = true) :
    cache.get key = (none, { cache with
      entries := cache.entries.drop key
      clock := cache.clock + 1
      stats := { cache.stats with
        misses := cache.stats.misses + 1, expirations := cache.stats.expirations + 1 } }) := by
  simp [get, expire, he, hl, Table.get?_drop]

theorem get_of_live (he : cache.entries.get? key = some entry) (hl : entry.hasElapsed = false) :
    cache.get key = (some entry.value, { cache with
      entries := cache.entries.put key { entry with lastUse := cache.clock + 1 }
      clock := cache.clock + 1
      stats := { cache.stats with hits := cache.stats.hits + 1 } }) := by
  simp [get, expire, he, hl]

theorem evictBelow_of_lt {capacity : Nat} (h : cache.size < capacity) (times : Nat) :
    evictBelow capacity times cache = cache := by
  cases times with
  | zero => rfl
  | succ times => rw [evictBelow, if_neg (Nat.not_le_of_lt h)]

/-- The entry that was used longest ago is evicted. -/
theorem evict_of_ranks {first : κ × CacheEntry ν} {rest : Table κ (CacheEntry ν)}
    (h : Ranks cache.entries cache.clock (first :: rest)) :
    cache.evict = { cache with
      entries := cache.entries.drop first.1
      stats := { cache.stats with evictions := cache.stats.evictions + 1 } } := by
  simp [evict, h.oldest?_eq_head?]

theorem has_evict (h : cache.entries.has key = false) : cache.evict.entries.has key = false := by
  rw [Table.has, Option.isSome_eq_false_iff, Option.isNone_iff_eq_none] at h ⊢
  unfold evict
  split
  · exact h
  · rw [Table.get?_drop, h, ite_self]

theorem makeRoom_of_has (h : cache.entries.has key = true) : cache.makeRoom key = cache := by
  unfold makeRoom
  cases cache.config.capacity with
  | none => rfl
  | some capacity => exact if_pos h

theorem makeRoom_of_lt (h : ∀ capacity, cache.config.capacity = some capacity → cache.size < capacity)
    (key : κ) : cache.makeRoom key = cache := by
  unfold makeRoom
  cases hc : cache.config.capacity with
  | none => rfl
  | some capacity =>
    simp only [evictBelow_of_lt (h capacity hc)]
    exact ite_self _

/-- A full cache loses one entry to make room for a new key. -/
theorem makeRoom_of_full {first : κ × CacheEntry ν} {rest : Table κ (CacheEntry ν)}
    (h : Ranks cache.entries cache.clock (first :: rest))
    (hc : cache.config.capacity = some cache.size) (hk : cache.entries.has key = false) :
    cache.makeRoom key = cache.evict := by
  have hsize : cache.size = rest.length + 1 := h.length_eq.symm
  have hlt : cache.evict.size < rest.length + 1 := by
    rw [evict_of_ranks h]
    exact Nat.lt_succ_of_le (Nat.le_of_eq h.drop_head.length_eq.symm)
  unfold makeRoom
  simp only [hc, hk, hsize, Bool.false_eq_true, if_false]
  rw [evictBelow, if_pos (Nat.le_of_eq hsize.symm), evictBelow_of_lt hlt]

omit [DecidableEq κ] in
/-- What is pruned is what has elapsed. -/
theorem prune_fst (cache : Cache κ ν) : cache.prune.1 = cache.entries.countP fun e => e.2.hasElapsed := by
  show cache.entries.length - (cache.entries.filter fun e => !e.2.hasElapsed).length = _
  have hall : cache.entries.length = (cache.entries.countP fun e => e.2.hasElapsed) +
      cache.entries.countP fun e => !e.2.hasElapsed := by
    rw [List.length_eq_countP_add_countP fun e : κ × CacheEntry ν => e.2.hasElapsed]
    simp only [Bool.not_eq_true, Bool.decide_eq_false]
  rw [← List.countP_eq_length_filter]
  omega

end Cache

/-! ### The list holds what the cache holds -/

/-- What is kept of an entry. -/
def CacheEntry.kept (entry : CacheEntry ν) : Kept ν := ⟨entry.value, entry.lifetime⟩

/-- A list that holds the entries of a cache in the order of their last uses. -/
structure Mirrors (cache : Cache κ ν) (list : RecencyList κ ν) : Prop where
  config : list.config = cache.config
  stats : list.stats = cache.stats
  pairs : ∃ sorted, Cache.Ranks cache.entries cache.clock sorted ∧
    list.pairs = sorted.map fun e => (e.1, e.2.kept)
  /-- There are no more entries than the capacity allows. -/
  room : ∀ capacity, cache.config.capacity = some capacity → cache.size ≤ capacity

namespace Mirrors

variable {cache : Cache κ ν} {list : RecencyList κ ν}

omit [DecidableEq κ] in
theorem empty (config : CacheConfig) : Mirrors (.empty config : Cache κ ν) { config } where
  config := rfl
  stats := rfl
  pairs := ⟨[], .nil _, rfl⟩
  room _ _ := Nat.zero_le _

omit [DecidableEq κ] in
theorem length_eq (h : Mirrors cache list) : list.pairs.length = cache.size := by
  obtain ⟨sorted, hr, hp⟩ := h.pairs
  rw [hp, List.length_map]
  exact hr.length_eq

omit [DecidableEq κ] in
/-- The list has the keys of the cache. -/
theorem keys_perm (h : Mirrors cache list) : (list.pairs.map Prod.fst).Perm (cache.entries.map Prod.fst) := by
  obtain ⟨sorted, hr, hp⟩ := h.pairs
  rw [hp, List.map_map]
  exact hr.perm.map Prod.fst

omit [DecidableEq κ] in
theorem distinct (h : Mirrors cache list) : Table.Distinct list.pairs := by
  obtain ⟨sorted, hr, -⟩ := h.pairs
  exact (h.keys_perm.trans (hr.perm.map Prod.fst).symm).symm.nodup_iff.mp hr.distinct

theorem get?_eq (h : Mirrors cache list) (key : κ) :
    list.pairs.get? key = (cache.entries.get? key).map CacheEntry.kept := by
  obtain ⟨sorted, hr, hp⟩ := h.pairs
  rw [hp, Table.get?_map, hr.get?_eq]

theorem has_eq (h : Mirrors cache list) (key : κ) : list.pairs.has key = cache.entries.has key := by
  rw [Table.has, Table.has, h.get?_eq, Option.isSome_map]

/-- A list without a key is as it is when the key is dropped. -/
theorem drop_eq_self (h : Mirrors cache list) {key : κ} (hk : cache.entries.has key = false) :
    list.pairs.drop key = list.pairs := by
  rw [← h.has_eq, Table.has, Option.isSome_eq_false_iff, Option.isNone_iff_eq_none] at hk
  exact Table.drop_of_get?_eq_none hk

/-- An entry that is written comes to the end of the list. -/
theorem store (h : Mirrors cache list) (key : κ) (entry : CacheEntry ν) (hu : entry.lastUse = cache.clock + 1)
    (hroom : cache.entries.has key = true ∨ ∀ c, cache.config.capacity = some c → cache.size < c)
    {stats stats' : CacheStats} (hs : stats' = stats) :
    Mirrors { cache with entries := cache.entries.put key entry, clock := cache.clock + 1, stats }
      { list with pairs := list.pairs.drop key ++ [(key, entry.kept)], stats := stats' } := by
  obtain ⟨sorted, hr, hp⟩ := h.pairs
  refine ⟨h.config, hs, ⟨_, hr.put key entry hu, ?_⟩, fun c hc => ?_⟩
  · rw [hp, Table.drop_map, List.map_append]
    rfl
  · show (cache.entries.put key entry).length ≤ c
    rw [Table.length_put]
    rcases hroom with hk | hlt
    · rw [if_pos hk]
      exact h.room c hc
    · have hle : cache.entries.length + 1 ≤ c := hlt c hc
      split <;> omega

/-- The list without its first pair is what a cache holds when it has evicted an entry. -/
theorem evict (h : Mirrors cache list) (hne : cache.size ≠ 0) :
    Mirrors cache.evict { list with
      pairs := list.pairs.tail
      stats := { list.stats with evictions := list.stats.evictions + 1 } } := by
  obtain ⟨sorted, hr, hp⟩ := h.pairs
  cases sorted with
  | nil => exact absurd hr.length_eq.symm hne
  | cons first rest =>
    rw [Cache.evict_of_ranks hr]
    refine ⟨h.config, by rw [h.stats], ⟨rest, hr.drop_head, by rw [hp]; rfl⟩, fun c hc => ?_⟩
    exact Nat.le_trans (Table.length_drop_le _ _) (h.room c hc)

/-- A cache makes room by evicting one entry where it is full and the key is new to it, and else it has room
already. -/
theorem makeRoom_cases (h : Mirrors cache list) (hz : cache.config.capacity ≠ some 0) (key : κ) :
    (cache.config.capacity = some cache.size ∧ cache.entries.has key = false ∧
        cache.makeRoom key = cache.evict ∧ cache.size ≠ 0) ∨
      ((cache.entries.has key = true ∨ ∀ c, cache.config.capacity = some c → cache.size < c) ∧
        cache.makeRoom key = cache) := by
  by_cases hk : cache.entries.has key = true
  · exact .inr ⟨.inl hk, Cache.makeRoom_of_has hk⟩
  by_cases hc : cache.config.capacity = some cache.size
  · have hne : cache.size ≠ 0 := fun e => hz (e ▸ hc)
    obtain ⟨sorted, hr, -⟩ := h.pairs
    cases sorted with
    | nil => exact absurd hr.length_eq.symm hne
    | cons first rest =>
      rw [Bool.not_eq_true] at hk
      exact .inl ⟨hc, hk, Cache.makeRoom_of_full hr hc hk, hne⟩
  · have hlt : ∀ c, cache.config.capacity = some c → cache.size < c := fun c hcap =>
      Nat.lt_of_le_of_ne (h.room c hcap) fun e => hc (e ▸ hcap)
    exact .inr ⟨.inr hlt, Cache.makeRoom_of_lt hlt key⟩

/-! ### Calls -/

theorem get (h : Mirrors cache list) (key : κ) :
    (cache.get key).1 = (list.get key).1 ∧ Mirrors (cache.get key).2 (list.get key).2 := by
  have hget := h.get?_eq key
  cases he : cache.entries.get? key with
  | none =>
    have hlist : list.get key =
        (none, { list with stats := { list.stats with misses := list.stats.misses + 1 } }) := by
      simp [RecencyList.get, hget, he]
    obtain ⟨sorted, hr, hp⟩ := h.pairs
    rw [Cache.get_of_absent he, hlist]
    exact ⟨rfl, h.config, by rw [h.stats], ⟨sorted, hr.tick, hp⟩, h.room⟩
  | some entry =>
    rw [he, Option.map_some] at hget
    cases hl : entry.hasElapsed with
    | true =>
      have hkept : entry.kept.lifetime = some 0 := beq_iff_eq.mp hl
      have hlist : list.get key = (none, { list with
          pairs := list.pairs.drop key
          stats := { list.stats with
            misses := list.stats.misses + 1, expirations := list.stats.expirations + 1 } }) := by
        simp [RecencyList.get, hget, hkept]
      obtain ⟨sorted, hr, hp⟩ := h.pairs
      rw [Cache.get_of_elapsed he hl, hlist]
      refine ⟨rfl, h.config, by rw [h.stats], ⟨sorted.drop key, (hr.drop key).tick, ?_⟩, fun c hc => ?_⟩
      · rw [hp, Table.drop_map]
      · exact Nat.le_trans (Table.length_drop_le _ _) (h.room c hc)
    | false =>
      have hkept : entry.kept.lifetime ≠ some 0 := beq_eq_false_iff_ne.mp hl
      have hlist : list.get key = (some entry.value, { list with
          pairs := list.pairs.drop key ++ [(key, entry.kept)]
          stats := { list.stats with hits := list.stats.hits + 1 } }) := by
        rw [RecencyList.get, hget]
        exact if_neg hkept
      have hk : cache.entries.has key = true := by rw [Table.has, he, Option.isSome_some]
      rw [Cache.get_of_live he hl, hlist]
      exact ⟨rfl, h.store key { entry with lastUse := cache.clock + 1 } rfl (.inl hk) (by rw [h.stats])⟩

/-- Storing a value puts it at the end of the list, for which a full cache gives up its first entry. -/
theorem insertFor (h : Mirrors cache list) (lifetime : Option Nat) (key : κ) (value : ν) :
    Mirrors (cache.insertFor lifetime key value) (list.insertFor lifetime key value) := by
  have hcapacity : list.config.capacity = cache.config.capacity := by rw [h.config]
  unfold Cache.insertFor RecencyList.insertFor
  rw [hcapacity, h.has_eq, h.length_eq]
  by_cases hz : cache.config.capacity = some 0
  · rw [if_pos hz, if_pos hz]
    exact h
  rw [if_neg hz, if_neg hz]
  rcases h.makeRoom_cases hz key with ⟨hc, hk, hroom, hne⟩ | ⟨hroom, hsame⟩
  · have hm := h.evict hne
    have hlt : ∀ c, cache.evict.config.capacity = some c → cache.evict.size < c := by
      intro c hcap
      rw [← hm.config, h.config, hc] at hcap
      rw [← Option.some.inj hcap, ← hm.length_eq, ← h.length_eq, List.length_tail, h.length_eq]
      omega
    have hs := hm.store key ⟨value, lifetime, cache.evict.clock + 1⟩ rfl (.inr hlt) hm.stats
    rw [hm.drop_eq_self (Cache.has_evict hk)] at hs
    rw [hroom, hk, if_neg Bool.false_ne_true, if_pos hc]
    exact hs
  · have hs := h.store key ⟨value, lifetime, cache.clock + 1⟩ rfl hroom h.stats
    rw [hsame]
    cases hk : cache.entries.has key with
    | true => exact hs
    | false =>
      rw [h.drop_eq_self hk] at hs
      have hnot : cache.config.capacity ≠ some cache.size := fun hc =>
        Nat.lt_irrefl _ ((hroom.resolve_left (by simp [hk])) _ hc)
      rw [if_neg Bool.false_ne_true, if_neg hnot]
      exact hs

theorem remove (h : Mirrors cache list) (key : κ) :
    (cache.remove key).1 = (list.pairs.get? key).map (·.value) ∧
      Mirrors (cache.remove key).2 { list with pairs := list.pairs.drop key } := by
  obtain ⟨sorted, hr, hp⟩ := h.pairs
  refine ⟨?_, h.config, h.stats, ⟨sorted.drop key, hr.drop key, ?_⟩, fun c hc => ?_⟩
  · rw [h.get?_eq, Option.map_map]
    rfl
  · rw [hp, Table.drop_map]
  · exact Nat.le_trans (Table.length_drop_le _ _) (h.room c hc)

omit [DecidableEq κ] in
theorem clear (h : Mirrors cache list) : Mirrors cache.clear { list with pairs := [] } :=
  ⟨h.config, h.stats, ⟨[], .nil _, rfl⟩, fun _ _ => Nat.zero_le _⟩

omit [DecidableEq κ] in
theorem prune (h : Mirrors cache list) :
    cache.prune.1 = list.prune.1 ∧ Mirrors cache.prune.2 list.prune.2 := by
  obtain ⟨sorted, hr, hp⟩ := h.pairs
  have hkept : ∀ e : κ × CacheEntry ν, decide (e.2.kept.lifetime = some 0) = e.2.hasElapsed :=
    fun e => Bool.eq_iff_iff.mpr (by rw [decide_eq_true_iff, CacheEntry.hasElapsed, beq_iff_eq]; rfl)
  have hpairs : (list.pairs.filter fun p => p.2.lifetime ≠ some 0) =
      (sorted.filter fun e => !e.2.hasElapsed).map fun e => (e.1, e.2.kept) := by
    rw [hp, List.filter_map]
    congr 1
    refine List.filter_congr fun e _ => ?_
    rw [← hkept e]
    exact decide_not
  have hcount : cache.prune.1 = list.prune.1 := by
    show cache.prune.1 = list.pairs.countP fun p => p.2.lifetime = some 0
    rw [Cache.prune_fst, hp, List.countP_map, ← hr.perm.countP_eq]
    exact List.countP_congr fun e _ => by rw [← hkept e]; rfl
  refine ⟨hcount, h.config, ?_, ⟨_, hr.filter _, hpairs⟩, fun c hc => ?_⟩
  · show { list.stats with expirations := list.stats.expirations + list.prune.1 } =
      { cache.stats with expirations := cache.stats.expirations + cache.prune.1 }
    rw [h.stats, hcount]
  · exact Nat.le_trans (List.length_filter_le _ _) (h.room c hc)

/-- **A call does to a list what it does to a cache**, and it is answered in the same way. -/
theorem perform (h : Mirrors cache list) (call : CacheCall κ ν) :
    (cache.perform call).1 = (list.perform call).1 ∧ Mirrors (cache.perform call).2 (list.perform call).2 := by
  cases call with
  | get key => exact ⟨congrArg _ (h.get key).1, (h.get key).2⟩
  | insert key value =>
    refine ⟨rfl, ?_⟩
    show Mirrors (cache.insertFor cache.config.lifetime key value)
      (list.insertFor list.config.lifetime key value)
    rw [h.config]
    exact h.insertFor _ key value
  | insertFor lifetime key value => exact ⟨rfl, h.insertFor _ key value⟩
  | remove key => exact ⟨congrArg _ (h.remove key).1, (h.remove key).2⟩
  | clear => exact ⟨rfl, h.clear⟩
  | prune => exact ⟨congrArg _ h.prune.1, h.prune.2⟩

/-- To make room for a key a cache gives up one entry at most. -/
theorem size_makeRoom (h : Mirrors cache list) (key : κ) : cache.size ≤ (cache.makeRoom key).size + 1 := by
  by_cases hz : cache.config.capacity = some 0
  · have hle := h.room 0 hz
    omega
  rcases h.makeRoom_cases hz key with ⟨-, -, hroom, hne⟩ | ⟨-, hsame⟩
  · have htail := (h.evict hne).length_eq
    rw [List.length_tail, h.length_eq] at htail
    rw [hroom]
    omega
  · rw [hsame]
    exact Nat.le_succ _

end Mirrors

/-! ### Clones -/

omit [DecidableEq κ] in
theorem RecencyList.config_perform [DecidableEq κ] (list : RecencyList κ ν) (call : CacheCall κ ν) :
    (list.perform call).2.config = list.config := by
  have hinsert : ∀ lifetime key value, (list.insertFor lifetime key value).config = list.config := by
    intro lifetime key value
    unfold RecencyList.insertFor
    split_ifs <;> rfl
  cases call with
  | get key =>
    show (list.get key).2.config = list.config
    unfold RecencyList.get
    split
    · rfl
    · split <;> rfl
  | insert key value => exact hinsert _ key value
  | insertFor lifetime key value => exact hinsert _ key value
  | remove | clear | prune => rfl

/-- A list that every clone of a cache works on, where each clone has the limits that the cache was made
with. -/
structure SharedCache.Mirrors (config : CacheConfig) (s : SharedCache κ ν) (list : RecencyList κ ν) :
    Prop where
  limits : ∀ clone, s.limits clone = config
  listLimits : list.config = config
  shared : ModuleBundler.Mirrors s.shared list

namespace SharedCache.Mirrors

variable {config : CacheConfig} {s : SharedCache κ ν} {list : RecencyList κ ν}

omit [DecidableEq κ] in
theorem through_eq (h : s.Mirrors config list) (clone : Nat) : s.through clone = s.shared := by
  rw [SharedCache.through, h.limits, ← h.listLimits, h.shared.config]

/-- One event, as it is seen from a cache and from a list. -/
theorem step (h : s.Mirrors config list) (event : CacheEvent κ ν) :
    (s.step event).1 = (list.step event).1 ∧ (s.step event).2.Mirrors config (list.step event).2 := by
  cases event with
  | call clone c =>
    obtain ⟨hanswer, hm⟩ := h.shared.perform c
    simp only [SharedCache.step, RecencyList.step, h.through_eq]
    refine ⟨?_, h.limits, ?_, hm⟩
    · rw [hanswer, hm.length_eq, hm.stats]
    · exact (list.config_perform c).trans h.listLimits
  | clone original copy =>
    refine ⟨rfl, fun other => ?_, h.listLimits, h.shared⟩
    show Function.update s.limits copy (s.limits original) other = config
    rw [Function.update_apply]
    split <;> exact h.limits _
  | elapse keys =>
    obtain ⟨sorted, hr, hp⟩ := h.shared.pairs
    have hroom : ∀ c, s.shared.config.capacity = some c →
        (s.shared.entries.map (CacheEntry.elapse keys)).length ≤ c := by
      intro c hc
      rw [List.length_map]
      exact h.shared.room c hc
    refine ⟨rfl, h.limits, h.listLimits,
      h.shared.config, h.shared.stats, ⟨_, hr.map fun e => ⟨rfl, rfl⟩, ?_⟩, hroom⟩
    show list.pairs.map _ = _
    rw [hp, List.map_map, List.map_map]
    rfl
  | rearrange order =>
    obtain ⟨sorted, hr, hp⟩ := h.shared.pairs
    have hperm := order.perm s.shared.entries
    have hroom : ∀ c, s.shared.config.capacity = some c → (order.apply s.shared.entries).length ≤ c := by
      intro c hc
      rw [hperm.length_eq]
      exact h.shared.room c hc
    exact ⟨rfl, h.limits, h.listLimits, h.shared.config, h.shared.stats, ⟨sorted, hr.of_perm hperm, hp⟩, hroom⟩

omit [DecidableEq κ] in
theorem start (config : CacheConfig) : (SharedCache.start config : SharedCache κ ν).Mirrors config { config } :=
  ⟨fun _ => rfl, rfl, .empty config⟩

/-- A run of events, as it is seen from a cache and from a list. -/
theorem run (h : s.Mirrors config list) (events : List (CacheEvent κ ν)) :
    (runEvents SharedCache.step s events).Mirrors config (runEvents RecencyList.step list events) :=
  (observe_eq_of_related (fun _ _ event h => h.step event) events _ _ h).2

end SharedCache.Mirrors

/-- **Through any of its clones a cache is a list by last use.** In every run every answer, every size and
every count is that of the list, in whatever order the table of the entries is gone through. There are never
more entries than the capacity allows, and to make room for a key a cache gives up one entry at most. -/
theorem observe_eq_recencyList (config : CacheConfig) (events : List (CacheEvent κ ν)) :
    let final := runEvents SharedCache.step (.start config) events
    observe SharedCache.step (.start config) events = observe RecencyList.step { config } events ∧
      (∀ clone capacity, config.capacity = some capacity → (final.through clone).size ≤ capacity) ∧
      ∀ clone key, (final.through clone).size ≤ ((final.through clone).makeRoom key).size + 1 := by
  intro final
  have hstart : (SharedCache.start config : SharedCache κ ν).Mirrors config { config } :=
    ⟨fun _ => rfl, rfl, .empty config⟩
  obtain ⟨hsame, hend⟩ := observe_eq_of_related (fun _ _ event h => h.step event) events _ _ hstart
  refine ⟨hsame, fun clone capacity hc => ?_, fun clone key => ?_⟩
  · rw [← hend.listLimits, hend.shared.config] at hc
    rw [hend.through_eq]
    exact hend.shared.room capacity hc
  · rw [hend.through_eq]
    exact hend.shared.size_makeRoom key

end ModuleBundler
