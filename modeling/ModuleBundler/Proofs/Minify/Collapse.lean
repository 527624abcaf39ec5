import ModuleBundler.Proofs.Minify.Visit

/-!
# Dropping gaps from a masked source

What is left of a masked source when its comments and gaps are dropped is the items of its reading, with
their numbers in place of the literals (`collapse_maskFrom`).
-/

namespace ModuleBundler.Minify

open Text

/-! ### Spelling tokens -/

/-- An item as it stands in the source. -/
def Item.text : Item → List Char
  | .char c => [c]
  | .literal t => t

/-- The character that decides whether a gap beside an item stays: a literal counts as a character of
words. -/
def Item.edge : Item → Char
  | .char c => c
  | .literal _ => '_'

/-- The items of `ts` in order, with one space for a gap between two items that must not stand side by
side. `left` is the edge of the item before `ts`, and `gap` tells whether a gap was met after it. -/
def spell : Option Char → Bool → List Token → List Char
  | _, _, [] => []
  | left, _, .gap :: ts => spell left true ts
  | left, gap, .item i :: ts =>
    if gap && left.any (needsSpace · i.edge) then ' ' :: (i.text ++ spell (some i.edge) false ts)
    else i.text ++ spell (some i.edge) false ts

/-- The tokens with `n`, `n + 1`, … in place of their literals. -/
def numberFrom : Nat → List Token → List Token
  | _, [] => []
  | n, .item (.literal _) :: ts => .item (.literal (placeholder n)) :: numberFrom (n + 1) ts
  | n, t :: ts => t :: numberFrom n ts

/-! ### The marks around a number -/

theorem needsSpace_of_isWordLike_right {w : Char} (hw : isWordLike w = true)
    (ho : w ∉ ['+', '-', '/', '*']) (c : Char) : needsSpace c w = isWordLike c := by
  have h : ∀ o ∈ ['+', '-', '/', '*'], (w == o) = false := fun o h => beq_false_of_ne fun e => ho (e ▸ h)
  simp [needsSpace, hw, h]

theorem needsSpace_of_isWordLike_left {w : Char} (hw : isWordLike w = true)
    (ho : w ∉ ['+', '-', '/', '*']) (c : Char) : needsSpace w c = isWordLike c := by
  have h : ∀ o ∈ ['+', '-', '/', '*'], (w == o) = false := fun o h => beq_false_of_ne fun e => ho (e ▸ h)
  simp [needsSpace, hw, h]

theorem isWordLike_openMark : isWordLike openMark = true := by simp [isWordLike]

theorem isWordLike_closeMark : isWordLike closeMark = true := by simp [isWordLike]

theorem isWordLike_underscore : isWordLike '_' = true := by simp [isWordLike]

/-- The opening mark stands for a literal on the right of a gap. -/
theorem needsSpace_openMark (c : Char) : needsSpace c openMark = needsSpace c '_' := by
  rw [needsSpace_of_isWordLike_right isWordLike_openMark (by decide),
    needsSpace_of_isWordLike_right isWordLike_underscore (by decide)]

/-- The closing mark stands for a literal on the left of a gap. -/
theorem needsSpace_closeMark (c : Char) : needsSpace closeMark c = needsSpace '_' c := by
  rw [needsSpace_of_isWordLike_left isWordLike_closeMark (by decide),
    needsSpace_of_isWordLike_left isWordLike_underscore (by decide)]

/-! ### Collapsing -/

theorem collapse_char {c : Char} {cs : List Char} (hb : isBlank c = false)
    (hs : c = '/' → cs.head? ≠ some '/' ∧ cs.head? ≠ some '*') (last : Option Char) (gap : Bool) :
    collapse .code last gap (c :: cs) =
      if gap && last.any (needsSpace · c) then ' ' :: c :: collapse .code (some c) false cs
      else c :: collapse .code (some c) false cs := by
  rw [collapse_eq_write, visits_char hs, write_kept hb, collapse_eq_write]

example : collapse .code (some 'a') true "b".toList = " b".toList := by cbv

theorem collapse_blank {c : Char} (hb : isBlank c = true) (last : Option Char) (gap : Bool)
    (cs : List Char) : collapse .code last gap (c :: cs) = collapse .code last true cs := by
  have hk : (Visit.alone .code c).isKept = false := by simp [Visit.isKept, hb]
  rw [collapse_eq_write, visits_char fun e => absurd e (ne_slash_of_isBlank hb), write_gap rfl hk,
    collapse_eq_write]

/-- A placeholder is left as it is, after a space where a literal needs one. -/
theorem collapse_placeholder (n : Nat) (last : Option Char) (gap : Bool) (cs : List Char) :
    collapse .code last gap (placeholder n ++ cs) =
      if gap && last.any (needsSpace · '_') then
        ' ' :: (placeholder n ++ collapse .code (some closeMark) false cs)
      else placeholder n ++ collapse .code (some closeMark) false cs := by
  have hdigits : ∀ c ∈ (toString n).toList, isBlank c = false :=
    fun c hc => isBlank_of_isDigit (isDigit_of_mem_toString hc)
  rw [collapse_eq_write, visits_placeholder, placeholder, List.map_cons, List.cons_append, write_kept (by decide),
    write_word hdigits (by decide), ← collapse_eq_write]
  simp [needsSpace_openMark]

theorem collapse_lineComment {body rest : List Char} (h : '\n' ∉ body)
    (hr : rest = [] ∨ rest.head? = some '\n') (last : Option Char) (gap : Bool) :
    collapse .code last gap ('/' :: '/' :: (body ++ rest)) = collapse .code last true rest := by
  rw [collapse_eq_write, visits, write_gap rfl rfl, write_gap rfl rfl, visits_line h, write_comment (by decide)]
  rcases hr with rfl | hr
  · rfl
  · obtain ⟨rest, rfl⟩ := List.head?_eq_some_iff.mp hr
    rw [visits, if_pos rfl, write_inside (by decide), collapse_blank (by decide), collapse_eq_write]

theorem collapse_blockComment {body : List Char} (h : ¬ ['*', '/'] <:+: body) (rest : List Char)
    (last : Option Char) (gap : Bool) :
    collapse .code last gap ('/' :: '*' :: (body ++ '*' :: '/' :: rest)) = collapse .code last true rest := by
  rw [collapse_eq_write, visits, write_gap rfl rfl, write_gap rfl rfl, visits_block h, write_comment (by decide),
    write_inside (by decide), write_inside (by decide), collapse_eq_write]

theorem collapse_openComment {body : List Char} (h : ¬ ['*', '/'] <:+: body) (last : Option Char)
    (gap : Bool) : collapse .code last gap ('/' :: '*' :: body) = [] := by
  rw [collapse_eq_write, visits, write_gap rfl rfl, write_gap rfl rfl, visits_openBlock h,
    ← List.append_nil (body.map _), write_comment (by decide), write]

/-- What stands before the pieces of a source is not taken for the opening of a comment, unless the source
goes on that way. -/
theorem head?_maskFrom {n : Nat} {cs : List Char} {c : Char} (hc : c ≠ openMark)
    (h : (maskFrom n (pieces cs)).head? = some c) : cs.head? = some c := by
  cases cs with
  | nil => simp [pieces, maskFrom] at h
  | cons d cs =>
    rw [pieces] at h
    split_ifs at h
    · exact absurd (Option.some.inj h).symm hc
    all_goals simpa [maskFrom, Piece.text] using h

/-- A slash that opens no comment in the source opens none in its masked text. -/
theorem slash_maskFrom {n : Nat} {c : Char} {rest : List Char}
    (hs : c = '/' → rest.head? ≠ some '/' ∧ rest.head? ≠ some '*') :
    c = '/' → (maskFrom n (pieces rest)).head? ≠ some '/' ∧ (maskFrom n (pieces rest)).head? ≠ some '*' :=
  fun e => ⟨fun h => (hs e).1 (head?_maskFrom (by decide) h), fun h => (hs e).2 (head?_maskFrom (by decide) h)⟩

/-- **What is left of a masked source** is the items of its reading, with numbers for the literals. -/
theorem collapse_maskFrom {cs : List Char} {ts : List Token} (h : Reads cs ts) :
    ∀ {n : Nat} {last left : Option Char} (gap : Bool),
      (∀ c, last.any (needsSpace · c) = left.any (needsSpace · c)) →
      collapse .code last gap (maskFrom n (pieces cs)) = spell left gap (numberFrom n ts) := by
  have hliteral : ∀ c, (some closeMark).any (needsSpace · c) = (some '_').any (needsSpace · c) :=
    fun c => by rw [Option.any_some, Option.any_some, needsSpace_closeMark]
  induction h with
  | nil =>
    intro n last left gap _
    rw [pieces, maskFrom, collapse, numberFrom, spell]
  | literal hq hb _ ih =>
    intro n last left gap hl
    rw [pieces_literal hq hb, maskFrom, collapse_placeholder, numberFrom, spell, hl,
      ih false hliteral]
    rfl
  | openLiteral hq hb ht =>
    intro n last left gap hl
    rw [pieces_openLiteral hq hb ht, maskFrom, maskFrom, collapse_placeholder, numberFrom, spell, hl,
      collapse, numberFrom, spell]
    rfl
  | @lineComment body rest _ hb hr _ ih =>
    intro n last left gap hl
    have hr' : maskFrom n (pieces rest) = [] ∨ (maskFrom n (pieces rest)).head? = some '\n' := by
      rcases hr with rfl | hr
      · exact .inl (by rw [pieces, maskFrom])
      · obtain ⟨rest, rfl⟩ := List.head?_eq_some_iff.mp hr
        exact .inr (by rw [pieces_code (by decide) (by simp)]; rfl)
    rw [pieces_lineComment hb hr, numberFrom, spell, ← ih true hl, maskFrom_comment]
    · exact collapse_lineComment hb hr' last gap
    · simp
  | blockComment hb _ ih =>
    intro n last left gap hl
    rw [pieces_blockComment hb, numberFrom, spell, ← ih true hl, maskFrom_comment]
    · simpa using collapse_blockComment hb _ last gap
    · simp
  | openComment hb =>
    intro n last left gap hl
    rw [pieces_openComment hb, maskFrom_comment, maskFrom, List.append_nil, collapse_openComment hb, numberFrom,
      numberFrom, spell, spell]
    simp
  | blank hc _ ih =>
    intro n last left gap hl
    rw [pieces_code (isQuote_of_isBlank hc) fun e => absurd e (ne_slash_of_isBlank hc), maskFrom_code,
      collapse_blank hc, numberFrom, spell, ih true hl]
    simp
  | char hb hq hs _ ih =>
    intro n last left gap hl
    rw [pieces_code hq hs, maskFrom_code, collapse_char hb (slash_maskFrom hs), numberFrom, spell, hl,
      ih false fun _ => rfl]
    · rfl
    · simp

end ModuleBundler.Minify
