import ModuleBundler.Proofs.Cache.Contents

/-!
# The order of use

A cache holds its entries in some order, but what is found in it does not depend on this order
(`Table.get?_perm`). The order that counts is that of the last uses. In a cache no two entries were last used at
the same time, so the entries have exactly one order from the one that was used longest ago to the one that was
used last (`Ranks`). Storing an entry puts it last, dropping an entry leaves
the others as they are, and the oldest entry is the first one (`Ranks.oldest?_eq_head?`).
-/

namespace ModuleBundler

namespace Cache

variable {κ ν : Type} {entries sorted : Table κ (CacheEntry ν)} {clock : Nat}

/-! ### The oldest entry -/

theorem oldest?_eq_none_iff : oldest? entries = none ↔ entries = [] := by
  cases entries with
  | nil => simp [oldest?]
  | cons entry rest =>
    rw [oldest?]
    split
    · simp
    · split <;> simp

/-- The oldest entry is one of the entries, and none was last used before it. -/
theorem oldest?_spec {entry : κ × CacheEntry ν} (h : oldest? entries = some entry) :
    entry ∈ entries ∧ ∀ e ∈ entries, entry.2.lastUse ≤ e.2.lastUse := by
  induction entries generalizing entry with
  | nil => cases h
  | cons first rest ih =>
    rw [oldest?] at h
    cases ho : oldest? rest with
    | none =>
      obtain rfl := oldest?_eq_none_iff.mp ho
      simp only [ho, Option.some.injEq] at h
      subst h
      simp
    | some other =>
      obtain ⟨hmem, hle⟩ := ih ho
      simp only [ho] at h
      split at h
      next hlt =>
        obtain rfl := Option.some.inj h
        exact ⟨List.mem_cons_of_mem _ hmem, List.forall_mem_cons.mpr ⟨Nat.le_of_lt hlt, hle⟩⟩
      next hlt =>
        obtain rfl := Option.some.inj h
        refine ⟨List.mem_cons_self, List.forall_mem_cons.mpr ⟨Nat.le_refl _, fun e he => ?_⟩⟩
        exact Nat.le_trans (Nat.le_of_not_lt hlt) (hle e he)

/-! ### Entries by their last use -/

/-- `Ranks entries clock sorted`: the list `sorted` holds the entries of a cache from the one that was used
longest ago on. Each of them was used at a time of its own, and no time lies after `clock`. -/
structure Ranks (entries : Table κ (CacheEntry ν)) (clock : Nat) (sorted : Table κ (CacheEntry ν)) : Prop where
  perm : sorted.Perm entries
  distinct : Table.Distinct sorted
  rising : sorted.Pairwise fun a b => a.2.lastUse < b.2.lastUse
  past : ∀ e ∈ sorted, e.2.lastUse ≤ clock

namespace Ranks

theorem nil (clock : Nat) : Ranks ([] : Table κ (CacheEntry ν)) clock [] :=
  ⟨.refl _, List.nodup_nil, .nil, fun _ h => absurd h List.not_mem_nil⟩

theorem length_eq (h : Ranks entries clock sorted) : sorted.length = entries.length := h.perm.length_eq

theorem tick (h : Ranks entries clock sorted) : Ranks entries (clock + 1) sorted :=
  { h with past := fun e he => Nat.le_succ_of_le (h.past e he) }

/-- The order in which a table is gone through does not matter. -/
theorem of_perm {other : Table κ (CacheEntry ν)} (h : Ranks entries clock sorted) (hp : other.Perm entries) :
    Ranks other clock sorted :=
  { h with perm := h.perm.trans hp.symm }

theorem filter (h : Ranks entries clock sorted) (p : κ × CacheEntry ν → Bool) :
    Ranks (entries.filter p) clock (sorted.filter p) where
  perm := h.perm.filter p
  distinct := h.distinct.filter p
  rising := h.rising.filter p
  past e he := h.past e (List.mem_filter.mp he).1

/-- A change to entries that leaves their keys and their last uses as they are. -/
theorem map (h : Ranks entries clock sorted) {f : κ × CacheEntry ν → κ × CacheEntry ν}
    (hf : ∀ e, (f e).1 = e.1 ∧ (f e).2.lastUse = e.2.lastUse) :
    Ranks (entries.map f) clock (sorted.map f) where
  perm := h.perm.map f
  distinct := by
    have hkeys : (sorted.map f).map Prod.fst = sorted.map Prod.fst := by
      rw [List.map_map]
      exact List.map_congr_left fun e _ => (hf e).1
    unfold Table.Distinct
    rw [hkeys]
    exact h.distinct
  rising := by
    rw [List.pairwise_map]
    exact h.rising.imp fun hab => by rwa [(hf _).2, (hf _).2]
  past := by
    intro e' he'
    obtain ⟨e, he, rfl⟩ := List.mem_map.mp he'
    rw [(hf e).2]
    exact h.past e he

/-- The oldest entry is the first one. -/
theorem oldest?_eq_head? (h : Ranks entries clock sorted) : oldest? entries = sorted.head? := by
  cases ho : oldest? entries with
  | none =>
    obtain rfl := oldest?_eq_none_iff.mp ho
    rw [List.perm_nil.mp h.perm]
    rfl
  | some entry =>
    obtain ⟨hmem, hle⟩ := oldest?_spec ho
    cases sorted with
    | nil => exact absurd (h.perm.mem_iff.mpr hmem) List.not_mem_nil
    | cons first rest =>
      -- an entry behind the first one was used after it
      rcases List.mem_cons.mp (h.perm.mem_iff.mpr hmem) with rfl | hrest
      · rfl
      · have hlt := (List.pairwise_cons.mp h.rising).1 entry hrest
        have hge := hle first (h.perm.mem_iff.mp List.mem_cons_self)
        omega

section

variable [DecidableEq κ] {key : κ}

theorem get?_eq (h : Ranks entries clock sorted) (key : κ) : entries.get? key = sorted.get? key :=
  (Table.get?_perm h.distinct h.perm key).symm

theorem drop (h : Ranks entries clock sorted) (key : κ) :
    Ranks (entries.drop key) clock (sorted.drop key) := by
  rw [Table.drop_eq_filter, Table.drop_eq_filter]
  exact h.filter _

/-- Without its first entry the list goes on as before. -/
theorem drop_head {first : κ × CacheEntry ν} {rest : Table κ (CacheEntry ν)}
    (h : Ranks entries clock (first :: rest)) : Ranks (entries.drop first.1) clock rest := by
  have hd := h.drop first.1
  rwa [Table.drop, if_pos rfl, Table.drop_eq_self fun e => h.distinct.ne_first] at hd

/-- An entry that is written is the one that was used last. -/
theorem put (h : Ranks entries clock sorted) (key : κ) (entry : CacheEntry ν)
    (hu : entry.lastUse = clock + 1) :
    Ranks (entries.put key entry) (clock + 1) (sorted.drop key ++ [(key, entry)]) := by
  have hd := h.drop key
  refine ⟨?_, h.distinct.drop_concat key entry, ?_, ?_⟩
  · refine (hd.perm.append_right _).trans ?_
    exact (Table.put_perm (h.distinct.perm h.perm) key entry).symm
  · refine List.pairwise_append.mpr ⟨hd.rising, List.pairwise_singleton _ _, ?_⟩
    intro e he e' he'
    rw [List.mem_singleton.mp he', hu]
    exact Nat.lt_succ_of_le (hd.past e he)
  · intro e he
    rcases List.mem_append.mp he with he | he
    · exact Nat.le_succ_of_le (hd.past e he)
    · exact Nat.le_of_eq (by rw [List.mem_singleton.mp he, hu])

end

end Ranks

end Cache

end ModuleBundler
