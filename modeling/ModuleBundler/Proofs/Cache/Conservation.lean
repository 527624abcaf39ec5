import ModuleBundler.Proofs.Cache.Recency

/-!
# No entry of a cache gets lost

A cache counts what it drops on its own, and tells what it drops on demand. Every entry that ever came into it is
still there or was counted or told in one of these ways, and in one of them only (`entries_accounted`): in every run
the values that were stored under a key that had none are as many as the entries that are left, those that were
evicted, those that expired, those that were removed and those that were cleared away.

What carries the proof is that the keys which a table loses at an event and the keys which it gains make up the
difference in its size (`Table.length_add_lost`).
-/

namespace ModuleBundler

/-! ### Keys that a table loses -/

namespace Table

variable {κ ν μ : Type} [DecidableEq κ] {table : Table κ ν} {other : Table κ μ}

/-- How many keys of a table have no value in another one. -/
def lost (table : Table κ ν) (other : Table κ μ) : Nat := table.countP fun entry => !has other entry.1

theorem lost_eq_countP_keys (table : Table κ ν) (other : Table κ μ) :
    lost table other = (table.map Prod.fst).countP fun key => decide (key ∉ other.map Prod.fst) := by
  rw [lost, List.countP_map]
  refine List.countP_congr fun entry _ => ?_
  rw [Function.comp_apply, decide_eq_true_iff, ← has_eq_true_iff, Bool.not_eq_true', Bool.not_eq_true]

/-- Which keys are lost depends on the keys of the tables only. -/
theorem lost_congr {ν' μ' : Type} {table' : Table κ ν'} {other' : Table κ μ'}
    (h : (table.map Prod.fst).Perm (table'.map Prod.fst))
    (h' : (other.map Prod.fst).Perm (other'.map Prod.fst)) : lost table other = lost table' other' := by
  rw [lost_eq_countP_keys, lost_eq_countP_keys, h.countP_eq]
  exact List.countP_congr fun key _ => by simp only [h'.mem_iff]

/-- Nothing is lost if every key stands in the other table too. -/
theorem lost_eq_zero (h : table.map Prod.fst ⊆ other.map Prod.fst) : lost table other = 0 :=
  List.countP_eq_zero.mpr fun entry he => by simp [has_eq_true_iff.mpr (h (List.mem_map_of_mem he))]

/-- The keys of a table are lost, or stand in the other table too. -/
theorem length_eq_countP_add_lost (table : Table κ ν) (other : Table κ μ) :
    table.length = (table.map Prod.fst).countP (fun key => decide (key ∈ other.map Prod.fst)) +
      lost table other := by
  rw [lost_eq_countP_keys, ← List.length_map Prod.fst,
    List.length_eq_countP_add_countP fun key => decide (key ∈ other.map Prod.fst)]
  simp only [decide_eq_true_iff]

/-- The keys that are lost and the keys that are new make up the difference in size. -/
theorem length_add_lost (hd : Distinct table) (hd' : Distinct other) :
    other.length + lost table other = table.length + lost other table := by
  -- the keys that stand in both tables are as many on either side
  have hboth : (table.map Prod.fst).countP (fun key => decide (key ∈ other.map Prod.fst)) =
      (other.map Prod.fst).countP fun key => decide (key ∈ table.map Prod.fst) := by
    rw [List.countP_eq_length_filter, List.countP_eq_length_filter]
    refine ((List.perm_ext_iff_of_nodup (hd.sublist List.filter_sublist)
      (hd'.sublist List.filter_sublist)).mpr fun key => ?_).length_eq
    simp only [List.mem_filter, decide_eq_true_iff, and_comm]
  have hlength := length_eq_countP_add_lost table other
  have hlength' := length_eq_countP_add_lost other table
  omega

/-- Dropping a key makes a table one entry shorter, or it leaves the table as it is. -/
theorem length_drop (hd : Distinct table) (key : κ) :
    (drop table key).length + (has table key).toNat = table.length := by
  cases hk : get? table key with
  | none => rw [drop_of_get?_eq_none hk, has, hk]; rfl
  | some value =>
    have hput := (put_perm hd key value).length_eq
    rw [length_put, List.length_append] at hput
    rw [has, hk] at hput ⊢
    exact hput.symm

theorem has_append_singleton (front : Table κ ν) (key : κ) (value : ν) :
    has (front ++ [(key, value)]) key = true := by
  simp [has_eq_true_iff]

theorem lost_eq_zero_of_subset {part : Table κ ν} (h : ∀ entry ∈ part, entry ∈ table) : lost part table = 0 :=
  lost_eq_zero (List.map_subset _ h)

/-- Of a table without new keys and one key more only this one can be new. -/
theorem lost_append_singleton {part : Table κ ν} (h : ∀ entry ∈ part, entry ∈ table) (key : κ) (value : ν) :
    lost (part ++ [(key, value)]) table = (!has table key).toNat := by
  rw [lost, List.countP_append, ← lost, lost_eq_zero_of_subset h, List.countP_singleton]
  cases has table key <;> rfl

end Table

variable {κ ν : Type} [DecidableEq κ]

/-! ### What is counted -/

/-- What a run of events adds up to, where `count` tells what one event adds. -/
def tally {σ ε ω : Type} (step : σ → ε → Option ω × σ) (count : σ → ε → Nat) : σ → List ε → Nat
  | _, [] => 0
  | s, e :: events => count s e + tally step count (step s e).2 events

namespace SharedCache

/-- 1 for a look-up. -/
def lookups (_ : SharedCache κ ν) : CacheEvent κ ν → Nat
  | .call _ (.get _) => 1
  | _ => 0

/-- 1 for an insertion that stores its value under a key that had none. -/
def stored (s : SharedCache κ ν) (event : CacheEvent κ ν) : Nat :=
  match event with
  | .call _ (.insert key _) | .call _ (.insertFor _ key _) =>
    (!s.shared.entries.has key && (s.step event).2.shared.entries.has key).toNat
  | _ => 0

/-- 1 for a removal that answers with a value. -/
def removed (s : SharedCache κ ν) : CacheEvent κ ν → Nat
  | .call clone (.remove key) => ((s.through clone).remove key).1.isSome.toNat
  | _ => 0

/-- The number of entries that an event clears away. -/
def cleared (s : SharedCache κ ν) : CacheEvent κ ν → Nat
  | .call clone .clear => (s.through clone).size
  | _ => 0

end SharedCache

/-! ### The balance of a list -/

namespace RecencyList

variable {list : RecencyList κ ν}

/-- The pairs that are there, and those that were evicted or expired. -/
def accounted (list : RecencyList κ ν) : Nat :=
  list.pairs.length + list.stats.evictions + list.stats.expirations

/-- 1 for an insertion that stores its pair under a key that had none. -/
def stored (list : RecencyList κ ν) (event : CacheEvent κ ν) : Nat :=
  match event with
  | .call _ (.insert key _) | .call _ (.insertFor _ key _) =>
    (!list.pairs.has key && (list.step event).2.pairs.has key).toNat
  | _ => 0

/-- How many pairs leave at an event because someone asked for it. -/
def released (list : RecencyList κ ν) : CacheEvent κ ν → Nat
  | .call _ (.remove key) => (list.pairs.has key).toNat
  | .call _ .clear => list.pairs.length
  | _ => 0

theorem lost_insertFor (list : RecencyList κ ν) (lifetime : Option Nat) (key : κ) (value : ν) :
    Table.lost (list.insertFor lifetime key value).pairs list.pairs =
      (!list.pairs.has key && (list.insertFor lifetime key value).pairs.has key).toNat := by
  unfold insertFor
  split_ifs with hz hk
  · rw [Table.lost_eq_zero_of_subset fun _ => id]
    cases list.pairs.has key <;> rfl
  · rw [Table.lost_append_singleton (fun _ => Table.mem_of_mem_drop), hk]
    rfl
  · rw [Table.lost_append_singleton (fun _ => List.mem_of_mem_tail), Table.has_append_singleton, Bool.and_true]
  · rw [Table.lost_append_singleton (fun _ => id), Table.has_append_singleton, Bool.and_true]

/-- A look-up moves a pair, or drops it. -/
theorem lost_get (list : RecencyList κ ν) (key : κ) : Table.lost (list.get key).2.pairs list.pairs = 0 := by
  unfold get
  cases hk : list.pairs.get? key with
  | none => exact Table.lost_eq_zero_of_subset fun _ => id
  | some kept =>
    dsimp only
    split_ifs
    · exact Table.lost_eq_zero_of_subset fun _ => Table.mem_of_mem_drop
    · rw [Table.lost_append_singleton (fun _ => Table.mem_of_mem_drop), Table.has, hk]
      rfl

/-- **Keys come into a list by insertions only.** -/
theorem lost_step (list : RecencyList κ ν) (event : CacheEvent κ ν) :
    Table.lost (list.step event).2.pairs list.pairs = list.stored event := by
  cases event with
  | call clone c =>
    cases c with
    | get key => exact list.lost_get key
    | insert key value => exact list.lost_insertFor _ key value
    | insertFor lifetime key value => exact list.lost_insertFor _ key value
    | remove key => exact Table.lost_eq_zero_of_subset fun _ => Table.mem_of_mem_drop
    | clear => rfl
    | prune => exact Table.lost_eq_zero_of_subset fun _ he => (List.mem_filter.mp he).1
  | clone | rearrange => exact Table.lost_eq_zero_of_subset fun _ => id
  | elapse keys =>
    have hkeys : (list.step (.elapse keys)).2.pairs.map Prod.fst = list.pairs.map Prod.fst := List.map_map
    exact Table.lost_eq_zero fun _ hk => hkeys ▸ hk

theorem accounted_insertFor (hd : list.pairs.Distinct) (lifetime : Option Nat) (key : κ) (value : ν) :
    (list.insertFor lifetime key value).accounted =
      list.accounted + Table.lost (list.insertFor lifetime key value).pairs list.pairs := by
  unfold insertFor
  split_ifs with hz hk hfull
  · rw [Table.lost_eq_zero_of_subset fun _ => id]
    rfl
  · have hdrop := Table.length_drop hd key
    rw [Table.lost_append_singleton (fun _ => Table.mem_of_mem_drop), hk]
    rw [hk] at hdrop
    simp only [accounted, List.length_append, List.length_singleton, Bool.not_true, Bool.toNat_false, Bool.toNat_true]
      at hdrop ⊢
    omega
  · -- the pair that is evicted makes room for the new one
    have hne : list.pairs.length ≠ 0 := fun h0 => hz (h0 ▸ hfull)
    rw [Table.lost_append_singleton (fun _ => List.mem_of_mem_tail), Bool.eq_false_iff.mpr hk]
    simp only [accounted, List.length_append, List.length_tail, List.length_singleton, Bool.not_false,
      Bool.toNat_true]
    omega
  · rw [Table.lost_append_singleton (fun _ => id), Bool.eq_false_iff.mpr hk]
    simp only [accounted, List.length_append, List.length_singleton, Bool.not_false, Bool.toNat_true]
    omega

/-- What a look-up drops has expired. -/
theorem accounted_get (hd : list.pairs.Distinct) (key : κ) : (list.get key).2.accounted = list.accounted := by
  unfold get
  cases hk : list.pairs.get? key with
  | none => rfl
  | some kept =>
    have hdrop := Table.length_drop hd key
    rw [Table.has, hk, Option.isSome_some, Bool.toNat_true] at hdrop
    dsimp only
    split_ifs
    · simp only [accounted]
      omega
    · simp only [accounted, List.length_append, List.length_singleton]
      omega

omit [DecidableEq κ] in
theorem accounted_prune (list : RecencyList κ ν) : list.prune.2.accounted = list.accounted := by
  have hsplit := List.length_eq_countP_add_countP (fun p : κ × Kept ν => decide (p.2.lifetime = some 0))
    (l := list.pairs)
  simp only [decide_eq_true_iff] at hsplit
  simp only [accounted, prune, ← List.countP_eq_length_filter, ne_eq]
  omega

/-- **What comes into a list stays there, is counted, or is released.** -/
theorem accounted_step (hd : list.pairs.Distinct) (event : CacheEvent κ ν) :
    (list.step event).2.accounted + list.released event = list.accounted + list.stored event := by
  cases event with
  | call clone c =>
    cases c with
    | get key => exact accounted_get hd key
    | insert key value => exact (accounted_insertFor hd _ key value).trans (congrArg _ (list.lost_insertFor _ key value))
    | insertFor lifetime key value =>
      exact (accounted_insertFor hd _ key value).trans (congrArg _ (list.lost_insertFor _ key value))
    | remove key =>
      have hdrop := Table.length_drop hd key
      show (list.pairs.drop key).length + list.stats.evictions + list.stats.expirations +
        (list.pairs.has key).toNat = list.accounted + 0
      rw [accounted]
      omega
    | clear =>
      show 0 + list.stats.evictions + list.stats.expirations + list.pairs.length = list.accounted + 0
      rw [accounted]
      omega
    | prune => exact list.accounted_prune
  | clone | rearrange => rfl
  | elapse keys =>
    show (list.pairs.map _).length + list.stats.evictions + list.stats.expirations = list.accounted
    rw [List.length_map]
    rfl

/-- No count ever falls, and every look-up is counted as a hit or as a miss. -/
theorem stats_step (list : RecencyList κ ν) (s : SharedCache κ ν) (event : CacheEvent κ ν) :
    list.stats.evictions ≤ (list.step event).2.stats.evictions ∧
      list.stats.expirations ≤ (list.step event).2.stats.expirations ∧
      (list.step event).2.stats.hits + (list.step event).2.stats.misses =
        list.stats.hits + list.stats.misses + s.lookups event := by
  have hinsert : ∀ lifetime key value, list.stats.evictions ≤ (list.insertFor lifetime key value).stats.evictions ∧
      list.stats.expirations ≤ (list.insertFor lifetime key value).stats.expirations ∧
      (list.insertFor lifetime key value).stats.hits + (list.insertFor lifetime key value).stats.misses =
        list.stats.hits + list.stats.misses + 0 := by
    intro lifetime key value
    unfold insertFor
    split_ifs <;> simp
  cases event with
  | call clone c =>
    cases c with
    | get key =>
      show _ ≤ (list.get key).2.stats.evictions ∧ _ ≤ (list.get key).2.stats.expirations ∧
        (list.get key).2.stats.hits + (list.get key).2.stats.misses = list.stats.hits + list.stats.misses + 1
      unfold get
      split
      · exact ⟨Nat.le_refl _, Nat.le_refl _, rfl⟩
      · split_ifs
        · exact ⟨Nat.le_refl _, Nat.le_succ _, rfl⟩
        · exact ⟨Nat.le_refl _, Nat.le_refl _, Nat.succ_add _ _⟩
    | insert key value => exact hinsert _ key value
    | insertFor lifetime key value => exact hinsert _ key value
    | prune => exact ⟨Nat.le_refl _, Nat.le_add_right _ _, rfl⟩
    | remove | clear => exact ⟨Nat.le_refl _, Nat.le_refl _, rfl⟩
  | clone | elapse | rearrange => exact ⟨Nat.le_refl _, Nat.le_refl _, rfl⟩

end RecencyList

/-! ### The balance of a cache -/

namespace SharedCache.Mirrors

variable {config : CacheConfig} {s : SharedCache κ ν} {list : RecencyList κ ν}

/-- What is lost between two caches is what is lost between their lists. -/
theorem lost_eq {s' : SharedCache κ ν} {list' : RecencyList κ ν} (h : s.Mirrors config list)
    (h' : s'.Mirrors config list') :
    Table.lost s.shared.entries s'.shared.entries = Table.lost list.pairs list'.pairs :=
  Table.lost_congr h.shared.keys_perm.symm h'.shared.keys_perm.symm

theorem stored_eq (h : s.Mirrors config list) (event : CacheEvent κ ν) : s.stored event = list.stored event := by
  have hstored : ∀ key, (!s.shared.entries.has key && (s.step event).2.shared.entries.has key) =
      (!list.pairs.has key && (list.step event).2.pairs.has key) := fun key => by
    rw [h.shared.has_eq, (h.step event).2.shared.has_eq]
  cases event with
  | call clone c =>
    cases c with
    | insert key value => exact congrArg Bool.toNat (hstored key)
    | insertFor lifetime key value => exact congrArg Bool.toNat (hstored key)
    | _ => rfl
  | _ => rfl

theorem released_eq (h : s.Mirrors config list) (event : CacheEvent κ ν) :
    s.removed event + s.cleared event = list.released event := by
  cases event with
  | call clone c =>
    cases c with
    | remove key =>
      show (Option.map _ (s.shared.entries.get? key)).isSome.toNat + 0 = (list.pairs.has key).toNat
      rw [Option.isSome_map, ← Table.has, h.shared.has_eq]
      rfl
    | clear =>
      show 0 + s.shared.size = list.pairs.length
      rw [h.shared.length_eq, Nat.zero_add]
    | _ => rfl
  | _ => rfl

/-- The balance of an event: the keys that come in are the ones that were stored, and the keys that go are counted or
given back. -/
theorem balance (h : s.Mirrors config list) (event : CacheEvent κ ν) :
    Table.lost (s.step event).2.shared.entries s.shared.entries = s.stored event ∧
      s.shared.stats.evictions ≤ (s.step event).2.shared.stats.evictions ∧
      s.shared.stats.expirations ≤ (s.step event).2.shared.stats.expirations ∧
      (s.step event).2.shared.stats.evictions + (s.step event).2.shared.stats.expirations + s.removed event +
          s.cleared event =
        s.shared.stats.evictions + s.shared.stats.expirations +
          Table.lost s.shared.entries (s.step event).2.shared.entries := by
  have h' := (h.step event).2
  have hnew := list.lost_step event
  have hstep := RecencyList.accounted_step h.shared.distinct event
  have hlength := Table.length_add_lost h.shared.distinct h'.shared.distinct
  obtain ⟨hevictions, hexpirations, -⟩ := list.stats_step s event
  rw [RecencyList.accounted, RecencyList.accounted, ← h.released_eq] at hstep
  rw [← h.shared.stats, ← h'.shared.stats, h.lost_eq h', h'.lost_eq h, h.stored_eq]
  refine ⟨hnew, hevictions, hexpirations, ?_⟩
  omega

/-- The balance of a run. -/
theorem accounted_run (events : List (CacheEvent κ ν)) : ∀ {s : SharedCache κ ν} {list : RecencyList κ ν},
    s.Mirrors config list →
    (runEvents RecencyList.step list events).accounted + tally SharedCache.step SharedCache.removed s events +
        tally SharedCache.step SharedCache.cleared s events =
      list.accounted + tally SharedCache.step SharedCache.stored s events := by
  induction events with
  | nil => exact fun _ => rfl
  | cons event events ih =>
    intro s list h
    have hrun := ih (h.step event).2
    have hstep := RecencyList.accounted_step h.shared.distinct event
    rw [← h.stored_eq, ← h.released_eq] at hstep
    show (runEvents RecencyList.step (list.step event).2 events).accounted +
      (s.removed event + tally SharedCache.step SharedCache.removed (s.step event).2 events) +
      (s.cleared event + tally SharedCache.step SharedCache.cleared (s.step event).2 events) =
      list.accounted + (s.stored event + tally SharedCache.step SharedCache.stored (s.step event).2 events)
    omega

/-- Every look-up of a run is counted. -/
theorem lookups_run (events : List (CacheEvent κ ν)) : ∀ (s : SharedCache κ ν) (list : RecencyList κ ν),
    (runEvents RecencyList.step list events).stats.hits + (runEvents RecencyList.step list events).stats.misses =
      list.stats.hits + list.stats.misses + tally SharedCache.step SharedCache.lookups s events := by
  induction events with
  | nil => exact fun _ _ => rfl
  | cons event events ih =>
    intro s list
    have hrun := ih (s.step event).2 (list.step event).2
    obtain ⟨-, -, hstep⟩ := list.stats_step s event
    show (runEvents RecencyList.step (list.step event).2 events).stats.hits +
      (runEvents RecencyList.step (list.step event).2 events).stats.misses = list.stats.hits + list.stats.misses +
        (s.lookups event + tally SharedCache.step SharedCache.lookups (s.step event).2 events)
    omega

end SharedCache.Mirrors

/-- **No entry of a cache gets lost.** After every run, through whichever clone, the values that were stored under a
key that had none are as many as the entries that are there, the evictions, the expirations, the values that removals
gave back and the entries that were cleared away; and the hits and the misses are as many as the look-ups. At every
single event the keys that come in are the ones that were stored, and the keys that go are counted or given back, each
of them once. -/
theorem entries_accounted (config : CacheConfig) (events : List (CacheEvent κ ν)) :
    let start : SharedCache κ ν := .start config
    let final := runEvents SharedCache.step start events
    (∀ clone, let cache := final.through clone
      tally SharedCache.step SharedCache.stored start events =
        cache.size + cache.stats.evictions + cache.stats.expirations +
          tally SharedCache.step SharedCache.removed start events +
          tally SharedCache.step SharedCache.cleared start events ∧
      cache.stats.hits + cache.stats.misses = tally SharedCache.step SharedCache.lookups start events) ∧
    ∀ event, let after := (final.step event).2
      Table.lost after.shared.entries final.shared.entries = final.stored event ∧
      final.shared.stats.evictions ≤ after.shared.stats.evictions ∧
      final.shared.stats.expirations ≤ after.shared.stats.expirations ∧
      after.shared.stats.evictions + after.shared.stats.expirations + final.removed event + final.cleared event =
        final.shared.stats.evictions + final.shared.stats.expirations +
          Table.lost final.shared.entries after.shared.entries := by
  intro start final
  have hstart : start.Mirrors config { config } := .start config
  have hend := hstart.run events
  refine ⟨fun clone => ⟨?_, ?_⟩, fun event => ?_⟩
  · have hrun := SharedCache.Mirrors.accounted_run events hstart
    rw [RecencyList.accounted, hend.shared.length_eq, hend.shared.stats] at hrun
    simp only [RecencyList.accounted, List.length_nil, Nat.zero_add] at hrun
    exact hrun.symm
  · have hrun := SharedCache.Mirrors.lookups_run events start { config }
    rw [hend.shared.stats] at hrun
    exact hrun.trans (Nat.zero_add _)
  · exact hend.balance event

end ModuleBundler
