import ModuleBundler.Proofs.Minify.Visit

/-!
# Spaces that are needed

The scan that drops comments and gaps writes no blank but single spaces, each of them between two characters that must
not stand side by side. It decides on a space when it is about to write the character after it, knowing the one before
it; so whatever it has read, and in whichever state it goes on, every space that it adds is needed (`spaced_write`).
Tightening takes away only spaces that are not needed, and finds none (`tighten_of_spaced`).
-/

namespace ModuleBundler.Minify

open Text

/-- `Spaced left cs`: after the character `left`, the only blanks in `cs` are single spaces between two characters that
must not stand side by side. -/
inductive Spaced : Option Char → List Char → Prop where
  | nil {left : Option Char} : Spaced left []
  | char {left : Option Char} {c : Char} {cs : List Char} : isBlank c = false → Spaced (some c) cs →
      Spaced left (c :: cs)
  | space {left c : Char} {cs : List Char} : needsSpace left c = true → isBlank c = false → Spaced (some c) cs →
      Spaced (some left) (' ' :: c :: cs)

/-- **Every blank that the scan writes is a space that is needed**, from whichever state it starts. -/
theorem spaced_write (last : Option Char) (gap : Bool) (vs : List Visit) : Spaced last (write last gap vs) := by
  fun_induction write last gap vs with
  | case1 => exact .nil
  -- a character of code after a gap that is kept
  | case2 last gap v vs hv hneeded ih =>
    rw [Bool.and_eq_true] at hneeded
    cases last with
    | none => cases hneeded.2
    | some left => exact .space hneeded.2 (Visit.isBlank_of_isKept hv) ih
  -- a character of code with no gap before it, or with one that is dropped
  | case3 last gap v vs hv _ ih => exact .char (Visit.isBlank_of_isKept hv) ih
  -- a visit at which nothing is written
  | case4 last gap v vs _ ih => exact ih

theorem spaced_collapse (scan : Scan) (last : Option Char) (gap : Bool) (cs : List Char) :
    Spaced last (collapse scan last gap cs) := by
  rw [collapse_eq_write]
  exact spaced_write last gap _

theorem tighten_char {c : Char} (hc : isBlank c = false) (before : Option Char) (cs : List Char) :
    tighten before (c :: cs) = c :: tighten (some c) cs := by
  have h : (c == ' ') = false := beq_false_of_ne fun e => by subst e; exact absurd hc (by decide)
  rw [tighten]
  rintro left right e
  rw [h] at e
  exact absurd e Bool.false_ne_true

theorem tighten_neededSpace {left c : Char} (h : needsSpace left c = true) (cs : List Char) :
    tighten (some left) (' ' :: c :: cs) = ' ' :: tighten (some ' ') (c :: cs) := by
  rw [tighten.eq_2 _ _ left c rfl rfl, if_neg (by simp [h])]

/-- Where every space is needed, tightening changes nothing. -/
theorem tighten_of_spaced {left : Option Char} {cs : List Char} (h : Spaced left cs) : tighten left cs = cs := by
  induction h with
  | nil => rw [tighten]
  | char hc _ ih => rw [tighten_char hc, ih]
  | space hneeded hc _ ih => rw [tighten_neededSpace hneeded, tighten_char hc, ih]

/-- Tightening changes nothing in what the scan writes. -/
theorem tighten_collapse (scan : Scan) (last : Option Char) (gap : Bool) (cs : List Char) :
    tighten last (collapse scan last gap cs) = collapse scan last gap cs :=
  tighten_of_spaced (spaced_collapse scan last gap cs)

/-! ### The neighbours of a space -/

/-- The last of the characters `c :: cs`, with `cs` alone in view. -/
theorem getLast?_cons_or {α : Type} (c : α) (cs : List α) (before : Option α) :
    (c :: cs).getLast?.or before = cs.getLast?.or (some c) := by
  rw [List.getLast?_cons]
  cases cs.getLast? <;> rfl

/-- A blank stands between two characters that need it. -/
theorem Spaced.neighbours {left : Option Char} {cs : List Char} (h : Spaced left cs)
    (hleft : ∀ l, left = some l → isBlank l = false) {as bs : List Char} {c : Char} (hcs : cs = as ++ c :: bs)
    (hc : isBlank c = true) :
    c = ' ' ∧ ∃ l r, as.getLast?.or left = some l ∧ bs.head? = some r ∧ isBlank l = false ∧ isBlank r = false ∧
      needsSpace l r = true := by
  induction h generalizing as with
  | nil => simp at hcs
  | @char left d ds hd _ ih =>
    cases as with
    | nil =>
      cases hcs
      exact absurd (hd.symm.trans hc) Bool.false_ne_true
    | cons a as =>
      cases hcs
      rw [getLast?_cons_or]
      exact ih (fun l hl => Option.some.inj hl ▸ hd) rfl
  | @space left d ds hneeded hd _ ih =>
    cases as with
    | nil =>
      cases hcs
      exact ⟨rfl, left, d, rfl, rfl, hleft left rfl, hd, hneeded⟩
    | cons a as =>
      cases as with
      | nil =>
        cases hcs
        exact absurd (hd.symm.trans hc) Bool.false_ne_true
      | cons b as =>
        cases hcs
        rw [getLast?_cons_or, getLast?_cons_or]
        exact ih (fun l hl => Option.some.inj hl ▸ hd) rfl

/-- **Tightening is left with nothing to do.** Whatever text is scanned, tightening does not change what the scan
writes: every blank in it is a single space, neither at the start nor at the end, between two characters that must not
stand side by side. -/
theorem collapse_leaves_needed_spaces (cs : List Char) :
    tighten none (collapse .code none false cs) = collapse .code none false cs ∧
      ∀ (as bs : List Char) (c : Char), collapse .code none false cs = as ++ c :: bs → isBlank c = true →
        c = ' ' ∧ ∃ l r, as.getLast? = some l ∧ bs.head? = some r ∧ isBlank l = false ∧ isBlank r = false ∧
          needsSpace l r = true := by
  have hspaced := spaced_collapse .code none false cs
  refine ⟨tighten_of_spaced hspaced, fun as bs c hcs hc => ?_⟩
  have hneighbours := hspaced.neighbours (fun l hl => by cases hl) hcs hc
  rwa [Option.or_none] at hneighbours

/-- A text with blanks and comments at its ends, and with gaps of which one is needed. -/
def gappedText : List Char := " /* a */ b + \t/* c */ + d // e".toList

theorem collapse_leaves_needed_spaces_gapped :
    collapse .code none false gappedText = "b+".toList ++ ' ' :: "+d".toList ∧ isBlank ' ' = true ∧
      tighten none "b+ +d".toList = "b+ +d".toList ∧
      ∃ l r, "b+".toList.getLast? = some l ∧ "+d".toList.head? = some r ∧ isBlank l = false ∧ isBlank r = false ∧
        needsSpace l r = true := by
  have hwritten : collapse .code none false gappedText = "b+".toList ++ ' ' :: "+d".toList := by decide
  have hblank : isBlank ' ' = true := by decide
  obtain ⟨htight, hneeded⟩ := collapse_leaves_needed_spaces gappedText
  rw [hwritten] at htight
  exact ⟨hwritten, hblank, htight, (hneeded _ _ ' ' hwritten hblank).2⟩

end ModuleBundler.Minify
