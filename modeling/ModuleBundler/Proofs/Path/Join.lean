import ModuleBundler.Files.Store
import Mathlib.Data.List.Basic

/-!
# The parts of joined paths

Joining puts the parts of a relative path after the parts of the directory (`parts_join`), and cleaning
looks at the parts only. So two spellings of one place stay two spellings of one place when they are
joined to a directory, and they are cleaned to one text (`clean_join_congr`). A store that keeps its
files under clean paths therefore gives the same answer for both (`source_view_congr`).
-/

namespace ModuleBundler

/-! ### Segments -/

theorem segments_ne_nil (cs : List Char) : segments cs ≠ [] := by
  unfold segments
  cases cs with
  | nil => simp [Text.splitOn]
  | cons c cs =>
    rw [Text.splitOn]
    split
    · simp
    · split <;> simp

/-- The segments on both sides of a slash. -/
theorem segments_append_slash (as bs : List Char) :
    segments (as ++ '/' :: bs) = segments as ++ segments bs := by
  unfold segments
  induction as with
  | nil => simp [Text.splitOn]
  | cons a as ih =>
    simp only [List.cons_append, Text.splitOn]
    rw [ih]
    by_cases h : a = '/'
    · simp [h]
    · cases hs : Text.splitOn '/' as with
      | nil => exact absurd hs (segments_ne_nil as)
      | cons s rest => simp [h]

namespace Path

/-! ### Parts -/

/-- The parts that segments stand for. -/
def body (p : Path) : List Part := (segments p.text.toList).filterMap Part.ofSegment

theorem ofSegment_ne {segment : List Char} {part : Part} (h : Part.ofSegment segment = some part) :
    part ≠ .root ∧ part ≠ .here := by
  unfold Part.ofSegment at h
  split at h
  · simp at h
  · split at h
    · simp only [Option.some.injEq] at h
      subst h
      simp
    · simp only [Option.some.injEq] at h
      subst h
      simp

theorem mem_body_ne {p : Path} {part : Part} (h : part ∈ p.body) : part ≠ .root ∧ part ≠ .here := by
  obtain ⟨segment, -, e⟩ := List.mem_filterMap.mp h
  exact ofSegment_ne e

theorem parts_of_isAbsolute {p : Path} (h : p.isAbsolute = true) : p.parts = .root :: p.body := by
  simp [parts, body, h]

theorem parts_of_not_isAbsolute {p : Path} (h : p.isAbsolute = false) :
    p.parts = p.body ∨ p.parts = .here :: p.body := by
  unfold parts body
  simp only [h, Bool.false_eq_true, if_false]
  split
  · exact Or.inr rfl
  · exact Or.inl rfl

theorem isAbsolute_eq_true_iff {p : Path} : p.isAbsolute = true ↔ .root ∈ p.parts := by
  constructor
  · intro h
    rw [parts_of_isAbsolute h]
    exact List.mem_cons_self
  · intro h
    by_contra ha
    have hb : .root ∉ p.body := fun hm => (mem_body_ne hm).1 rfl
    rcases parts_of_not_isAbsolute (Bool.eq_false_iff.mpr ha) with e | e <;> rw [e] at h
    · exact hb h
    · exact hb (by simpa using h)

/-- What a path adds to a directory is to be seen from its parts. -/
theorem body_eq_filter (p : Path) :
    p.body = p.parts.filter fun part => decide (part ≠ .root ∧ part ≠ .here) := by
  have hb : p.body.filter (fun part => decide (part ≠ .root ∧ part ≠ .here)) = p.body :=
    List.filter_eq_self.mpr fun part h => decide_eq_true (mem_body_ne h)
  by_cases h : p.isAbsolute = true
  · rw [parts_of_isAbsolute h, List.filter_cons_of_neg (by simp), hb]
  · rcases parts_of_not_isAbsolute (Bool.eq_false_iff.mpr h) with e | e <;> rw [e]
    · exact hb.symm
    · rw [List.filter_cons_of_neg (by simp), hb]

theorem isAbsolute_congr {p q : Path} (h : p.parts = q.parts) : p.isAbsolute = q.isAbsolute := by
  rw [Bool.eq_iff_iff, isAbsolute_eq_true_iff, isAbsolute_eq_true_iff, h]

theorem body_congr {p q : Path} (h : p.parts = q.parts) : p.body = q.body := by
  rw [body_eq_filter, body_eq_filter, h]

/-! ### Joins -/

/-- A text that goes on after a slash adds the parts of what follows the slash. -/
theorem parts_append_slash (as bs : List Char) :
    (⟨String.ofList (as ++ '/' :: bs)⟩ : Path).parts =
      (⟨String.ofList (as ++ ['/'])⟩ : Path).parts ++ (⟨String.ofList bs⟩ : Path).body := by
  have habs : (⟨String.ofList (as ++ '/' :: bs)⟩ : Path).isAbsolute =
      (⟨String.ofList (as ++ ['/'])⟩ : Path).isAbsolute := by
    cases as <;> simp [isAbsolute]
  have hhead : (segments as ++ segments bs).head? = (segments as ++ segments []).head? := by
    cases h : segments as with
    | nil => exact absurd h (segments_ne_nil as)
    | cons s rest => simp
  have hempty : (segments []).filterMap Part.ofSegment = [] := by decide
  unfold parts body
  rw [habs]
  simp only [String.toList_ofList, segments_append_slash, List.filterMap_append, hempty, List.append_nil,
    hhead]
  split
  · simp
  · split <;> simp

/-- A slash at its end is no part of a path. -/
theorem parts_slash {as : List Char} (h : as ≠ []) :
    (⟨String.ofList (as ++ ['/'])⟩ : Path).parts = (⟨String.ofList as⟩ : Path).parts := by
  have habs : (⟨String.ofList (as ++ ['/'])⟩ : Path).isAbsolute =
      (⟨String.ofList as⟩ : Path).isAbsolute := by
    cases as with
    | nil => exact absurd rfl h
    | cons a as => simp [isAbsolute]
  have hhead : (segments as ++ segments []).head? = (segments as).head? := by
    cases h : segments as with
    | nil => exact absurd h (segments_ne_nil as)
    | cons s rest => simp
  have hempty : (segments []).filterMap Part.ofSegment = [] := by decide
  unfold parts
  rw [habs]
  simp only [String.toList_ofList, segments_append_slash, List.filterMap_append, hempty, List.append_nil,
    hhead]

/-- **The parts of a joined path**: those of an absolute path alone, else those of the directory and
those of the path. -/
theorem parts_join (p q : Path) :
    (p.join q).parts =
      if q.isAbsolute = true ∨ p.text = "" then q.parts else p.parts ++ q.body := by
  by_cases ha : q.isAbsolute = true
  · simp [join, ha]
  by_cases hp : p.text = ""
  · simp [join, ha, hp]
  have hne : p.text.toList ≠ [] := by simpa using hp
  have hq : (⟨String.ofList q.text.toList⟩ : Path) = q := by simp
  rw [if_neg (not_or.mpr ⟨ha, hp⟩)]
  obtain ⟨as, c, hc⟩ := (List.eq_nil_or_concat' _).resolve_left hne
  have hpt : p = ⟨String.ofList (as ++ [c])⟩ := by
    rw [← hc]
    simp
  by_cases hs : c = '/'
  · -- the directory ends in a slash, and the path is written right after it
    subst hs
    have hj : p.join q = ⟨String.ofList (as ++ '/' :: q.text.toList)⟩ := by
      simp only [join, ha, if_false, hc, List.getLast?_append, List.getLast?_singleton, Option.some_or,
        Option.all_some, beq_self_eq_true, if_true, Bool.false_eq_true]
      congr 1
      apply String.toList_inj.mp
      simp [hc]
    rw [hj, parts_append_slash, hq, ← hpt]
  · have hj : p.join q = ⟨String.ofList ((as ++ [c]) ++ '/' :: q.text.toList)⟩ := by
      simp only [join, ha, hc, List.getLast?_append, List.getLast?_singleton, Option.some_or,
        Option.all_some, beq_eq_false_iff_ne.mpr hs, if_false, Bool.false_eq_true]
      congr 1
      apply String.toList_inj.mp
      simp [hc]
    rw [hj, parts_append_slash, parts_slash (by simp), hq, ← hpt]

theorem clean_congr {p q : Path} (h : p.parts = q.parts) : p.clean = q.clean := by
  unfold clean
  rw [h]

theorem parent?_congr {p q : Path} (h : p.parts = q.parts) : p.parent? = q.parent? := by
  unfold parent?
  rw [h]

/-- Two spellings of one place have one clean form, as seen from any directory. -/
theorem clean_join_congr (directory : Path) {p q : Path} (h : p.parts = q.parts) :
    (directory.join p).clean = (directory.join q).clean := by
  apply clean_congr
  rw [parts_join, parts_join, isAbsolute_congr h, body_congr h, h]

end Path

/-! ### Files in memory -/

namespace FileStore

theorem locate_congr (store : FileStore) {p q : Path} (h : p.parts = q.parts) :
    store.locate p = store.locate q :=
  Path.clean_join_congr store.workingDirectory h

/-- Two spellings of one place have the same text in memory. -/
theorem source_view_congr (store : FileStore) {p q : Path} (h : p.parts = q.parts) :
    store.view.source p = store.view.source q := by
  unfold Files.source
  simp only [view, contentAt, locate_congr store h]

end FileStore

end ModuleBundler
