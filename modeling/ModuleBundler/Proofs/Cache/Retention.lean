import ModuleBundler.Proofs.Cache.Recency
import Mathlib.Data.Finset.Card
import Mathlib.Data.Finset.Option

/-!
# How long a cache keeps an entry

An entry that was stored or found stays in a cache until as many other keys were stored or found after it as the cache
has room for (`get_eq_some_of_recent`). Nothing else that is done with other keys counts against it: no look-up that
finds nothing, no removal and no pruning.

What carries the proof is that every pair behind the entry in the list by last use was used after it
(`RecencyList.Keeps`). The entry is lost only as the first pair of a full list, to a key that is new to the list; then
the other pairs and this key make up the capacity.
-/

namespace ModuleBundler

variable {κ ν : Type} [DecidableEq κ]

/-! ### What happens to an entry -/

/-- Whether an event leaves an entry of `key` alone that was stored for `lifetime`: it neither drops it nor stores it
anew, and it does not let its lifetime run out. -/
def CacheEvent.Spares (key : κ) (lifetime : Option Nat) : CacheEvent κ ν → Prop
  | .call _ (.insert other _) => other ≠ key
  | .call _ (.insertFor _ other _) => other ≠ key
  | .call _ (.remove other) => other ≠ key
  | .call _ .clear => False
  | .elapse keys => key ∈ keys → lifetime = none
  | _ => True

theorem remaining_eq_self {keys : List κ} {key : κ} {lifetime : Option Nat} (h : key ∈ keys → lifetime = none) :
    remaining keys key lifetime = lifetime := by
  unfold remaining
  split_ifs with hk
  · rw [h hk]
    rfl
  · rfl

namespace SharedCache

/-- The cache after a run of events. -/
def after (config : CacheConfig) (events : List (CacheEvent κ ν)) : SharedCache κ ν :=
  runEvents step (.start config) events

/-- `s.Uses key kept event`: the event stores `kept` under `key`, for a time that has not elapsed, or it finds it
there. -/
inductive Uses (s : SharedCache κ ν) (key : κ) : Kept ν → CacheEvent κ ν → Prop where
  | insert {clone : Nat} {value : ν} : (s.limits clone).lifetime ≠ some 0 →
      Uses s key ⟨value, (s.limits clone).lifetime⟩ (.call clone (.insert key value))
  | insertFor {clone lifetime : Nat} {value : ν} : lifetime ≠ 0 →
      Uses s key ⟨value, some lifetime⟩ (.call clone (.insertFor lifetime key value))
  | hit {clone : Nat} {entry : CacheEntry ν} : s.shared.entries.get? key = some entry → entry.hasElapsed = false →
      Uses s key entry.kept (.call clone (.get key))

/-- The key that an event stores a value under, or finds a value under. -/
def used? (s : SharedCache κ ν) : CacheEvent κ ν → Option κ
  | .call _ (.insert key _) => some key
  | .call _ (.insertFor _ key _) => some key
  | .call clone (.get key) => if ((s.through clone).get key).1.isSome then some key else none
  | _ => none

/-- The keys that are used in a run of events. -/
def usedKeys (s : SharedCache κ ν) : List (CacheEvent κ ν) → Finset κ
  | [] => ∅
  | event :: events => (s.used? event).toFinset ∪ (s.step event).2.usedKeys events

end SharedCache

/-! ### Tables that keep an entry -/

namespace Table

variable {table : Table κ ν} {key other : κ} {value v : ν} {used used' : Finset κ}

/-- Whether a table holds an entry with no other entries behind it than those of `used` keys. -/
def Keeps (table : Table κ ν) (key : κ) (value : ν) (used : Finset κ) : Prop :=
  ∃ front back, table = front ++ (key, value) :: back ∧ ∀ entry ∈ back, entry.1 ∈ used

omit [DecidableEq κ] in
theorem keeps_append_singleton (table : Table κ ν) (key : κ) (value : ν) (used : Finset κ) :
    (table ++ [(key, value)]).Keeps key value used :=
  ⟨table, [], rfl, fun _ h => absurd h List.not_mem_nil⟩

namespace Keeps

omit [DecidableEq κ] in
theorem mono (h : table.Keeps key value used) (hu : used ⊆ used') : table.Keeps key value used' := by
  obtain ⟨front, back, rfl, hback⟩ := h
  exact ⟨front, back, rfl, fun entry he => hu (hback entry he)⟩

omit [DecidableEq κ] in
/-- A used key may come to the end. -/
theorem append (h : table.Keeps key value used) (ho : other ∈ used) (v : ν) :
    (table ++ [(other, v)]).Keeps key value used := by
  obtain ⟨front, back, rfl, hback⟩ := h
  refine ⟨front, back ++ [(other, v)], List.append_assoc _ _ _, fun entry he => ?_⟩
  rcases List.mem_append.mp he with he | he
  · exact hback entry he
  · rw [List.mem_singleton.mp he]
    exact ho

omit [DecidableEq κ] in
/-- Entries may be dropped, if it is not this one. -/
theorem filter (h : table.Keeps key value used) {p : κ × ν → Bool} (hp : p (key, value) = true) :
    Keeps (table.filter p) key value used := by
  obtain ⟨front, back, rfl, hback⟩ := h
  refine ⟨front.filter p, back.filter p, ?_, fun entry he => hback entry (List.mem_filter.mp he).1⟩
  rw [List.filter_append, List.filter_cons_of_pos hp]

theorem drop (h : table.Keeps key value used) (ho : other ≠ key) : (table.drop other).Keeps key value used := by
  rw [drop_eq_filter]
  exact h.filter (decide_eq_true ho.symm)

omit [DecidableEq κ] in
/-- Entries may change, if it is not their keys and not this one. -/
theorem map (h : table.Keeps key value used) {f : κ × ν → κ × ν} (hf : ∀ entry, (f entry).1 = entry.1)
    (hv : f (key, value) = (key, value)) : Keeps (List.map f table) key value used := by
  obtain ⟨front, back, rfl, hback⟩ := h
  refine ⟨front.map f, back.map f, by rw [List.map_append, List.map_cons, hv], fun entry he => ?_⟩
  obtain ⟨e, hm, rfl⟩ := List.mem_map.mp he
  rw [hf]
  exact hback e hm

theorem get?_eq (h : table.Keeps key value used) (hd : table.Distinct) : table.get? key = some value := by
  obtain ⟨front, back, rfl, -⟩ := h
  exact hd.get?_eq_some_iff.mpr (List.mem_append_right _ List.mem_cons_self)

/-- The first entry of a full table may go when a new key is used, as long as fewer keys were used than the table has
entries. -/
theorem tail (h : table.Keeps key value used) (hd : table.Distinct) (ho : table.has other = false)
    (hu : other ∈ used) (hne : other ≠ key) (hfew : (used.erase key).card < table.length) :
    Keeps (List.tail table) key value used := by
  obtain ⟨front, back, rfl, hback⟩ := h
  cases front with
  | cons first front => exact ⟨front, back, rfl, hback⟩
  | nil =>
    -- the keys behind the entry and the new one are as many as the entries
    have hnew : other ∉ back.map Prod.fst := fun hm =>
      Bool.false_ne_true (ho.symm.trans (has_eq_true_iff.mpr (List.mem_cons_of_mem key hm)))
    have hnodup : (other :: back.map Prod.fst).Nodup := List.nodup_cons.mpr ⟨hnew, hd.tail⟩
    have hsub : (other :: back.map Prod.fst).toFinset ⊆ used.erase key := by
      intro k hk
      rcases List.mem_cons.mp (List.mem_toFinset.mp hk) with rfl | hk
      · exact Finset.mem_erase.mpr ⟨hne, hu⟩
      · obtain ⟨entry, he, rfl⟩ := List.mem_map.mp hk
        exact Finset.mem_erase.mpr ⟨hd.ne_first he, hback entry he⟩
    have hcard := Finset.card_le_card hsub
    rw [List.toFinset_card_of_nodup hnodup, List.length_cons, List.length_map] at hcard
    exact absurd (Nat.lt_of_le_of_lt hcard hfew) (Nat.lt_irrefl _)

end Keeps

end Table

/-! ### Lists that keep a pair -/

namespace RecencyList

variable {list : RecencyList κ ν} {key other : κ} {kept : Kept ν} {used : Finset κ}

theorem keeps_get (h : list.pairs.Keeps key kept used) (hd : list.pairs.Distinct) (hl : kept.lifetime ≠ some 0)
    (hu : (list.get other).1.isSome = true → other ∈ used) : (list.get other).2.pairs.Keeps key kept used := by
  unfold get at hu ⊢
  cases ho : list.pairs.get? other with
  | none => exact h
  | some found =>
    -- what is found under `key` is the pair that is kept
    have hsame : other = key → found = kept := by
      rintro rfl
      exact Option.some.inj (ho.symm.trans (h.get?_eq hd))
    rw [ho] at hu
    dsimp only at hu ⊢
    split_ifs at hu ⊢ with hf
    · refine h.drop fun hk => hl ?_
      rw [← hsame hk]
      exact hf
    · by_cases hk : other = key
      · obtain rfl := hsame hk
        obtain rfl := hk
        exact Table.keeps_append_singleton _ _ _ _
      · exact (h.drop hk).append (hu rfl) found

theorem keeps_insertFor (h : list.pairs.Keeps key kept used) (hd : list.pairs.Distinct) (hk : other ≠ key)
    (hu : other ∈ used) (hfew : ∀ c, list.config.capacity = some c → (used.erase key).card < c)
    (lifetime : Option Nat) (value : ν) : (list.insertFor lifetime other value).pairs.Keeps key kept used := by
  unfold insertFor
  split_ifs with hz ho hfull
  · exact h
  · exact (h.drop hk).append hu _
  · exact (h.tail hd (Bool.eq_false_iff.mpr ho) hu hk (hfew _ hfull)).append hu _
  · exact h.append hu _

/-- A pair that is stored comes to the end, in a list with room for it. -/
theorem keeps_insertFor_self (hz : list.config.capacity ≠ some 0) (lifetime : Option Nat) (value : ν)
    (used : Finset κ) : (list.insertFor lifetime key value).pairs.Keeps key ⟨value, lifetime⟩ used := by
  unfold insertFor
  rw [if_neg hz]
  split_ifs <;> exact Table.keeps_append_singleton _ _ _ _

/-- A pair that is found comes to the end. -/
theorem keeps_get_self (hk : list.pairs.get? key = some kept) (hl : kept.lifetime ≠ some 0) (used : Finset κ) :
    (list.get key).2.pairs.Keeps key kept used := by
  rw [get, hk]
  dsimp only
  rw [if_neg hl]
  exact Table.keeps_append_singleton _ _ _ _

end RecencyList

/-! ### Caches that keep an entry -/

namespace SharedCache.Mirrors

variable {config : CacheConfig} {s : SharedCache κ ν} {list : RecencyList κ ν} {key : κ} {kept : Kept ν}
  {used : Finset κ} {event : CacheEvent κ ν}

/-- An entry that is used is the last one. -/
theorem keeps_of_uses (h : s.Mirrors config list) (hz : config.capacity ≠ some 0) (hu : s.Uses key kept event) :
    kept.lifetime ≠ some 0 ∧ (list.step event).2.pairs.Keeps key kept ∅ := by
  rw [← h.listLimits] at hz
  cases hu with
  | @insert clone value hl =>
    refine ⟨hl, ?_⟩
    rw [h.limits, ← h.listLimits]
    exact RecencyList.keeps_insertFor_self hz _ value ∅
  | @insertFor clone lifetime value hl =>
    exact ⟨fun he => hl (Option.some.inj he), RecencyList.keeps_insertFor_self hz _ value ∅⟩
  | @hit clone entry he hl =>
    have hl : entry.kept.lifetime ≠ some 0 := beq_eq_false_iff_ne.mp hl
    have hk : list.pairs.get? key = some entry.kept := by rw [h.shared.get?_eq, he]; rfl
    exact ⟨hl, RecencyList.keeps_get_self hk hl ∅⟩

/-- **An event that spares an entry keeps it**, unless so many keys have been used that a list is full of them. -/
theorem keeps_step (h : s.Mirrors config list) (hk : list.pairs.Keeps key kept used) (hl : kept.lifetime ≠ some 0)
    (hspare : event.Spares key kept.lifetime) (hused : (s.used? event).toFinset ⊆ used)
    (hfew : ∀ c, config.capacity = some c → (used.erase key).card < c) :
    (list.step event).2.pairs.Keeps key kept used := by
  have hd := h.shared.distinct
  rw [← h.listLimits] at hfew
  cases event with
  | call clone c =>
    cases c with
    | get other =>
      refine RecencyList.keeps_get hk hd hl fun hsome => hused (Option.mem_toFinset.mpr ?_)
      rw [← (h.shared.get other).1, ← h.through_eq clone] at hsome
      exact if_pos hsome
    | insert other value =>
      exact RecencyList.keeps_insertFor hk hd hspare (hused (Option.mem_toFinset.mpr rfl)) hfew _ value
    | insertFor lifetime other value =>
      exact RecencyList.keeps_insertFor hk hd hspare (hused (Option.mem_toFinset.mpr rfl)) hfew _ value
    | remove other => exact hk.drop hspare
    | clear => exact absurd hspare id
    | prune => exact hk.filter (decide_eq_true hl)
  | clone original copy => exact hk
  | rearrange order => exact hk
  | elapse keys =>
    refine hk.map (fun _ => rfl) ?_
    rw [remaining_eq_self hspare]

/-- A run that spares an entry keeps it. -/
theorem keeps_run (events : List (CacheEvent κ ν)) : ∀ {s : SharedCache κ ν} {list : RecencyList κ ν} {used : Finset κ},
    s.Mirrors config list → list.pairs.Keeps key kept used → kept.lifetime ≠ some 0 →
    (∀ event ∈ events, event.Spares key kept.lifetime) →
    (∀ c, config.capacity = some c → ((used ∪ s.usedKeys events).erase key).card < c) →
    (runEvents RecencyList.step list events).pairs.Keeps key kept (used ∪ s.usedKeys events) := by
  induction events with
  | nil => exact fun _ hk _ _ _ => hk.mono Finset.subset_union_left
  | cons event events ih =>
    intro s list used h hk hl hspare hfew
    obtain ⟨hevent, hevents⟩ := List.forall_mem_cons.mp hspare
    rw [SharedCache.usedKeys, ← Finset.union_assoc] at hfew ⊢
    refine ih (h.step event).2 ?_ hl hevents hfew
    refine h.keeps_step (hk.mono Finset.subset_union_left) hl hevent Finset.subset_union_right fun c hc => ?_
    refine Nat.lt_of_le_of_lt (Finset.card_le_card ?_) (hfew c hc)
    exact Finset.erase_subset_erase key Finset.subset_union_left

end SharedCache.Mirrors

/-- **An entry that was used stays until as many other keys are used as there is room for.** After any past, let an event
store a value under a key for a time that does not elapse, or find it there; then in every run that neither drops the
key nor stores it anew, and in which fewer other keys than the capacity are stored or found, a look-up through any
clone finds the value still. -/
theorem get_eq_some_of_recent (config : CacheConfig) (past events : List (CacheEvent κ ν)) (use : CacheEvent κ ν)
    (key : κ) (kept : Kept ν) (huse : (SharedCache.after config past).Uses key kept use)
    (hspare : ∀ event ∈ events, event.Spares key kept.lifetime)
    (hfew : ∀ capacity, config.capacity = some capacity →
      (((SharedCache.after config (past ++ [use])).usedKeys events).erase key).card < capacity) (clone : Nat) :
    (((SharedCache.after config (past ++ use :: events)).through clone).get key).1 = some kept.value := by
  have hz : config.capacity ≠ some 0 := fun hc => Nat.not_lt_zero _ (hfew 0 hc)
  have hpast : (SharedCache.after config past).Mirrors config _ := (SharedCache.Mirrors.start config).run past
  have huses : SharedCache.after config (past ++ [use]) = ((SharedCache.after config past).step use).2 :=
    List.foldl_append
  have hfinal : SharedCache.after config (past ++ use :: events) =
      runEvents SharedCache.step ((SharedCache.after config past).step use).2 events := List.foldl_append
  rw [huses] at hfew
  rw [hfinal]
  obtain ⟨hl, hkeeps⟩ := hpast.keeps_of_uses hz huse
  have hthen := (hpast.step use).2
  have hend := hthen.run events
  have hkept := hthen.keeps_run events hkeeps hl hspare (by rwa [Finset.empty_union])
  rw [hend.through_eq, (hend.shared.get key).1, RecencyList.get, hkept.get?_eq hend.shared.distinct]
  dsimp only
  rw [if_neg hl]

theorem get_eq_some_of_recent_crowd :
    let past : List (CacheEvent Nat Nat) := [.call 0 (.insert 1 10), .call 0 (.insert 2 20)]
    let use : CacheEvent Nat Nat := .call 3 (.get 1)
    let events : List (CacheEvent Nat Nat) := [.clone 0 1, .call 1 (.insertFor 5 3 30), .call 0 (.get 2),
      .elapse [3], .call 0 (.get 3), .call 2 (.insert 3 31), .call 0 .prune, .call 2 (.remove 7)]
    (SharedCache.after ⟨some 2, none⟩ past).Uses 1 ⟨10, none⟩ use ∧ (∀ event ∈ events, event.Spares 1 none) ∧
      (((SharedCache.after ⟨some 2, none⟩ (past ++ [use])).usedKeys events).erase 1) = {3} ∧
      (((SharedCache.after ⟨some 2, none⟩ (past ++ use :: events)).through 4).get 1).1 = some 10 := by
  intro past use events
  have huse : (SharedCache.after ⟨some 2, none⟩ past).Uses 1 ⟨10, none⟩ use :=
    @SharedCache.Uses.hit _ _ _ _ 1 3 ⟨10, none, 1⟩ rfl rfl
  have hspare : ∀ event ∈ events, event.Spares 1 none := by simp [events, CacheEvent.Spares]
  have hused : (((SharedCache.after ⟨some 2, none⟩ (past ++ [use])).usedKeys events).erase 1) = {3} := by decide
  refine ⟨huse, hspare, hused, get_eq_some_of_recent _ past events use 1 ⟨10, none⟩ huse hspare ?_ 4⟩
  intro capacity hc
  obtain rfl := Option.some.inj hc
  rw [hused]
  decide

end ModuleBundler
