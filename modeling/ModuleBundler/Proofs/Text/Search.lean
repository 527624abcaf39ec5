import ModuleBundler.Text.Search
import Mathlib.Data.List.Infix

/-!
# Where a pattern can stand

A pattern cannot reach over a character that it does not hold. So a text can be searched piece by piece
between such characters (`occursIn_append_cons`), and filled in piece by piece (`replaceAll_append_cons`).
-/

namespace ModuleBundler.Text

variable {pattern : List Char}

/-- A text without the separator is one piece. -/
theorem splitOn_of_not_mem {separator : Char} {cs : List Char} (h : separator ∉ cs) : splitOn separator cs = [cs] := by
  induction cs with
  | nil => rfl
  | cons c cs ih =>
    rw [List.mem_cons, not_or] at h
    rw [splitOn, if_neg (Ne.symm h.1), ih h.2]

theorem isPrefixOf_append_cons {c : Char} (hc : c ∉ pattern) (xs ys : List Char) :
    pattern.isPrefixOf (xs ++ c :: ys) = pattern.isPrefixOf xs := by
  induction pattern generalizing xs with
  | nil => simp
  | cons p pattern ih =>
    rw [List.mem_cons, not_or] at hc
    cases xs with
    | nil => simp [List.isPrefixOf, Ne.symm hc.1]
    | cons x xs => simp [List.isPrefixOf, ih hc.2]

/-- A pattern stands before or after a character that it does not hold. -/
theorem occursIn_append_cons {c : Char} (hc : c ∉ pattern) (hne : pattern ≠ []) (xs ys : List Char) :
    occursIn pattern (xs ++ c :: ys) = (occursIn pattern xs || occursIn pattern ys) := by
  induction xs with
  | nil =>
    have hp := isPrefixOf_append_cons hc [] ys
    have hempty : pattern.isPrefixOf [] = false := by cases pattern <;> simp_all
    rw [List.nil_append] at hp
    simp only [List.nil_append, occursIn, hp, hempty, List.isEmpty_eq_false_iff.mpr hne]
  | cons x xs ih =>
    rw [List.cons_append, occursIn, ih, occursIn, ← List.cons_append, isPrefixOf_append_cons hc,
      Bool.or_assoc]

theorem occursIn_cons {c : Char} (hc : c ∉ pattern) (hne : pattern ≠ []) (xs : List Char) :
    occursIn pattern (c :: xs) = occursIn pattern xs := by
  have h := occursIn_append_cons hc hne [] xs
  rwa [List.nil_append, occursIn, List.isEmpty_eq_false_iff.mpr hne, Bool.false_or] at h

/-- A text without one of the characters of a pattern does not hold the pattern. -/
theorem not_occursIn_of_not_mem {c : Char} {xs : List Char} (hc : c ∈ pattern) (hx : c ∉ xs) :
    occursIn pattern xs = false := by
  rw [Bool.eq_false_iff, ne_eq, occursIn_eq_true_iff]
  rintro ⟨before, after, rfl⟩
  exact hx (List.mem_append_left _ (List.mem_append_right _ hc))

/-- A text without the pattern stays as it is. -/
theorem replaceAll_of_not_occursIn (new : List Char) {xs : List Char} (h : occursIn pattern xs = false) :
    replaceAll pattern new xs = xs := by
  induction xs with
  | nil => rw [replaceAll]
  | cons x xs ih =>
    rw [occursIn, Bool.or_eq_false_iff] at h
    rw [replaceAll, h.1, Bool.and_false, if_neg Bool.false_ne_true, ih h.2]

/-- What stands before and after a character that the pattern does not hold is filled in on its own. -/
theorem replaceAll_append_cons {c : Char} (hc : c ∉ pattern) (new xs ys : List Char) :
    replaceAll pattern new (xs ++ c :: ys) = replaceAll pattern new xs ++ c :: replaceAll pattern new ys := by
  have hprefix := isPrefixOf_append_cons hc
  fun_induction replaceAll pattern new xs with
  | case1 =>
    have hnone : (!pattern.isEmpty && pattern.isPrefixOf (c :: ys)) = false := by
      rw [← List.nil_append (c :: ys), hprefix]
      cases pattern <;> rfl
    rw [List.nil_append, replaceAll, hnone, if_neg Bool.false_ne_true, List.nil_append]
  | case2 x xs hx ih =>
    -- the pattern that stands at the front ends before the character
    have hlength : pattern.length - 1 ≤ xs.length := by
      rw [Bool.and_eq_true] at hx
      have h := (List.isPrefixOf_iff_prefix.mp hx.2).length_le
      rw [List.length_cons] at h
      omega
    rw [List.cons_append, replaceAll, ← List.cons_append, hprefix, if_pos hx,
      List.drop_append_of_le_length hlength, ih, List.append_assoc]
  | case3 x xs hx ih =>
    rw [List.cons_append, replaceAll, ← List.cons_append, hprefix, if_neg hx, ih, List.cons_append]

/-- Only a text without the pattern stays as it is, if the new text begins with another character than the
pattern. -/
theorem replaceAll_eq_self_iff {new : List Char} (hne : pattern ≠ []) (hn : new ≠ [])
    (hfirst : new.head? ≠ pattern.head?) {xs : List Char} :
    replaceAll pattern new xs = xs ↔ occursIn pattern xs = false := by
  refine ⟨fun h => ?_, replaceAll_of_not_occursIn new⟩
  obtain ⟨p, pattern, rfl⟩ := List.exists_cons_of_ne_nil hne
  obtain ⟨n, new, rfl⟩ := List.exists_cons_of_ne_nil hn
  induction xs with
  | nil => rfl
  | cons x xs ih =>
    rw [replaceAll] at h
    split_ifs at h with hx
    · -- the first character is the first one of the new text, and of the pattern
      rw [Bool.and_eq_true] at hx
      obtain ⟨rest, hrest⟩ := List.isPrefixOf_iff_prefix.mp hx.2
      rw [List.cons_append, List.cons.injEq] at h hrest
      exact absurd (congrArg some (h.1.trans hrest.1.symm)) hfirst
    · have hx : (p :: pattern).isPrefixOf (x :: xs) = false :=
        Bool.eq_false_iff.mpr fun hp => hx (by rw [hp]; rfl)
      rw [occursIn, hx, Bool.false_or]
      exact ih (List.cons.inj h).2

/-- Where the pattern stands, the new text takes its place. -/
theorem replaceAll_append (hne : pattern ≠ []) (new ys : List Char) :
    replaceAll pattern new (pattern ++ ys) = new ++ replaceAll pattern new ys := by
  obtain ⟨p, ps, rfl⟩ := List.exists_cons_of_ne_nil hne
  have hp : (p :: ps).isPrefixOf (p :: (ps ++ ys)) = true :=
    List.isPrefixOf_iff_prefix.mpr (List.prefix_append (p :: ps) ys)
  rw [List.cons_append, replaceAll, hp]
  simp

/-- A pattern that stands once, after a character that it does not hold, is replaced there. -/
theorem replaceAll_once {c : Char} (hc : c ∉ pattern) (hne : pattern ≠ []) (new : List Char)
    {before after : List Char} (hb : occursIn pattern before = false) (ha : occursIn pattern after = false) :
    replaceAll pattern new (before ++ c :: (pattern ++ after)) = before ++ c :: (new ++ after) := by
  rw [replaceAll_append_cons hc, replaceAll_of_not_occursIn new hb, replaceAll_append hne,
    replaceAll_of_not_occursIn new ha]

/-- A character that stands neither in the pieces of a text nor between them. -/
theorem not_mem_intercalate {c d : Char} (hcd : c ≠ d) {ls : List (List Char)} (h : ∀ l ∈ ls, c ∉ l) :
    c ∉ [d].intercalate ls := by
  induction ls with
  | nil => simp
  | cons l ls ih =>
    obtain ⟨hl, hls⟩ := List.forall_mem_cons.mp h
    cases ls with
    | nil => simpa using hl
    | cons m ls =>
      rw [List.intercalate_cons_cons]
      simp [hl, hcd, ih hls]

end ModuleBundler.Text
