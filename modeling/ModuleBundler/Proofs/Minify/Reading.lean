import ModuleBundler.Minify.Gap
import ModuleBundler.Proofs.Text.Digits
import Mathlib.Data.List.Infix
import Mathlib.Data.List.TakeWhile

/-!
# Reading a source

How a source is read is said here once more, by rules that do not depend on how the pieces of a source
are found: what a literal and a comment are is said by what stands in them. By the rules every source
has exactly one reading, and it is what the pieces say (`reads_iff`).
-/

namespace ModuleBundler.Minify

open Text

/-! ### Tokens -/

/-- What minifying keeps of a source. -/
inductive Item where
  /-- A character of code. -/
  | char (c : Char)
  /-- A literal, with its quotes. -/
  | literal (text : List Char)
  deriving DecidableEq, Repr

/-- What a source is made of: items and the gaps between them. -/
inductive Token where
  /-- A blank or a comment. -/
  | gap
  | item (i : Item)
  deriving DecidableEq, Repr

/-- The inside of a literal between two quotes `q`: a backslash takes the character after it along. -/
inductive Inside (q : Char) : List Char → Prop where
  | nil : Inside q []
  | plain {c : Char} {body : List Char} : c ≠ q → c ≠ '\\' → Inside q body → Inside q (c :: body)
  | escaped {c : Char} {body : List Char} : Inside q body → Inside q ('\\' :: c :: body)

/-- `Reads cs ts`: the source `cs` consists of the tokens `ts`. -/
inductive Reads : List Char → List Token → Prop where
  | nil : Reads [] []
  /-- A literal ends with the first quote of its kind that no backslash takes along. -/
  | literal {q : Char} {body rest : List Char} {ts : List Token} : isQuote q = true → Inside q body →
      Reads rest ts → Reads (q :: (body ++ q :: rest)) (.item (.literal (q :: (body ++ [q]))) :: ts)
  /-- A literal without such a quote is the rest of the source, a last backslash included. -/
  | openLiteral {q : Char} {body tail : List Char} : isQuote q = true → Inside q body →
      tail = [] ∨ tail = ['\\'] → Reads (q :: (body ++ tail)) [.item (.literal (q :: (body ++ tail)))]
  /-- A line comment stops short of the line feed. -/
  | lineComment {body rest : List Char} {ts : List Token} : '\n' ∉ body →
      rest = [] ∨ rest.head? = some '\n' → Reads rest ts → Reads ('/' :: '/' :: (body ++ rest)) (.gap :: ts)
  /-- A block comment ends with the first closing mark after its opening mark. -/
  | blockComment {body rest : List Char} {ts : List Token} : ¬ ['*', '/'] <:+: body →
      Reads rest ts → Reads ('/' :: '*' :: (body ++ '*' :: '/' :: rest)) (.gap :: ts)
  /-- A block comment without a closing mark is the rest of the source. -/
  | openComment {body : List Char} : ¬ ['*', '/'] <:+: body → Reads ('/' :: '*' :: body) [.gap]
  | blank {c : Char} {rest : List Char} {ts : List Token} : isBlank c = true → Reads rest ts →
      Reads (c :: rest) (.gap :: ts)
  /-- Any other character is an item of its own. -/
  | char {c : Char} {rest : List Char} {ts : List Token} : isBlank c = false → isQuote c = false →
      (c = '/' → rest.head? ≠ some '/' ∧ rest.head? ≠ some '*') → Reads rest ts →
      Reads (c :: rest) (.item (.char c) :: ts)

/-! ### Literals -/

theorem ne_backslash_of_isQuote {q : Char} (h : isQuote q = true) : q ≠ '\\' := by
  rintro rfl
  exact absurd h (by decide)

theorem literalRest_plain {q c : Char} (hc : c ≠ q) (hb : c ≠ '\\') (cs : List Char) :
    literalRest q (c :: cs) = (c :: (literalRest q cs).1, (literalRest q cs).2) := by
  rw [literalRest, if_neg hc]
  exact fun _ _ h => absurd h hb

theorem literalRest_escaped (q c : Char) (cs : List Char) :
    literalRest q ('\\' :: c :: cs) = ('\\' :: c :: (literalRest q cs).1, (literalRest q cs).2) := by
  rw [literalRest]

theorem literalRest_inside {q : Char} {body : List Char} (h : Inside q body) (rest : List Char) :
    literalRest q (body ++ rest) = (body ++ (literalRest q rest).1, (literalRest q rest).2) := by
  induction h with
  | nil => rfl
  | plain hc hb _ ih => rw [List.cons_append, literalRest_plain hc hb, ih]; rfl
  | escaped _ ih => rw [List.cons_append, List.cons_append, literalRest_escaped, ih]; rfl

theorem literalRest_quote {q : Char} (hq : q ≠ '\\') (rest : List Char) :
    literalRest q (q :: rest) = ([q], rest) := by
  rw [literalRest, if_pos rfl]
  exact fun _ _ h => absurd h hq

theorem literalRest_open {q : Char} {tail : List Char} (hq : q ≠ '\\') (h : tail = [] ∨ tail = ['\\']) :
    literalRest q tail = (tail, []) := by
  rcases h with rfl | rfl
  · rfl
  · rw [literalRest, if_neg hq.symm]
    · rfl
    · simp

/-- A text after an opening quote has a closing quote, or it is the inside of an open literal. -/
theorem inside_cases (q : Char) (cs : List Char) :
    (∃ body rest, Inside q body ∧ cs = body ++ q :: rest) ∨
      ∃ body tail, Inside q body ∧ (tail = [] ∨ tail = ['\\']) ∧ cs = body ++ tail := by
  fun_induction literalRest q cs with
  | case1 => exact .inr ⟨[], [], .nil, .inl rfl, rfl⟩
  | case2 c cs after body _ ih =>
    rcases ih with ⟨body, rest, hb, rfl⟩ | ⟨body, tail, hb, ht, rfl⟩
    · exact .inl ⟨'\\' :: c :: body, rest, .escaped hb, rfl⟩
    · exact .inr ⟨'\\' :: c :: body, tail, .escaped hb, ht, rfl⟩
  | case3 cs => exact .inl ⟨[], cs, .nil, rfl⟩
  | case4 c cs hesc hc after body _ ih =>
    by_cases hb : c = '\\'
    · -- a backslash that takes no character along is the last character
      subst hb
      cases cs with
      | nil => exact .inr ⟨[], ['\\'], .nil, .inr rfl, rfl⟩
      | cons d cs => exact absurd rfl (hesc d cs rfl)
    rcases ih with ⟨body, rest, hi, rfl⟩ | ⟨body, tail, hi, ht, rfl⟩
    · exact .inl ⟨c :: body, rest, .plain hc hb hi, rfl⟩
    · exact .inr ⟨c :: body, tail, .plain hc hb hi, ht, rfl⟩

/-! ### Block comments -/

theorem infix_cons_iff_of_closing {c : Char} {cs : List Char} :
    ['*', '/'] <:+: c :: cs ↔ (c = '*' ∧ cs.head? = some '/') ∨ ['*', '/'] <:+: cs := by
  rw [List.infix_cons_iff, List.cons_prefix_cons, eq_comm]
  cases cs with
  | nil => simp
  | cons d cs => rw [List.cons_prefix_cons, eq_comm (a := '/')]; simp

theorem blockRest_cons {c : Char} {cs : List Char} (h : ¬ (c = '*' ∧ cs.head? = some '/')) :
    blockRest (c :: cs) = (c :: (blockRest cs).1, (blockRest cs).2) := by
  rw [blockRest]
  rintro cs' rfl rfl
  exact h ⟨rfl, rfl⟩

/-- The closing mark after a body does not turn the end of the body into a closing mark. -/
theorem opensClosing_append_iff {c : Char} {body rest : List Char} :
    (c = '*' ∧ (body ++ '*' :: '/' :: rest).head? = some '/') ↔ (c = '*' ∧ body.head? = some '/') := by
  cases body <;> simp

theorem blockRest_closed {body : List Char} (h : ¬ ['*', '/'] <:+: body) (rest : List Char) :
    blockRest (body ++ '*' :: '/' :: rest) = (body ++ ['*', '/'], rest) := by
  induction body with
  | nil => rfl
  | cons c body ih =>
    rw [infix_cons_iff_of_closing, not_or] at h
    rw [List.cons_append, blockRest_cons (mt opensClosing_append_iff.mp h.1), ih h.2, List.cons_append]

theorem blockRest_open {body : List Char} (h : ¬ ['*', '/'] <:+: body) : blockRest body = (body, []) := by
  induction body with
  | nil => rfl
  | cons c body ih =>
    rw [infix_cons_iff_of_closing, not_or] at h
    rw [blockRest_cons h.1, ih h.2]

/-- A text after the opening mark of a comment has a first closing mark, or it has none. -/
theorem closing_cases (cs : List Char) :
    (∃ body rest, ¬ ['*', '/'] <:+: body ∧ cs = body ++ '*' :: '/' :: rest) ∨ ¬ ['*', '/'] <:+: cs := by
  fun_induction blockRest cs with
  | case1 => exact .inr (by simp)
  | case2 cs => exact .inl ⟨[], cs, by simp, rfl⟩
  | case3 c cs hclose after body _ ih =>
    have hc : ¬ (c = '*' ∧ cs.head? = some '/') := by
      rintro ⟨rfl, h⟩
      cases cs with
      | nil => simp at h
      | cons d cs => exact hclose cs rfl (by simpa using h)
    rcases ih with ⟨body, rest, hb, rfl⟩ | ih
    · refine .inl ⟨c :: body, rest, ?_, rfl⟩
      rw [infix_cons_iff_of_closing, not_or]
      exact ⟨mt opensClosing_append_iff.mpr hc, hb⟩
    · exact .inr (by rw [infix_cons_iff_of_closing]; exact not_or.mpr ⟨hc, ih⟩)

/-! ### Readings and pieces -/

/-- What minifying makes of a piece. -/
def tokenOf : Piece → Token
  | .code c => if isBlank c then .gap else .item (.char c)
  | .literal t => .item (.literal t)
  | .comment _ => .gap

/-- The tokens of a source. -/
abbrev tokens (cs : List Char) : List Token := (pieces cs).map tokenOf

theorem pieces_literal {q : Char} {body : List Char} (hq : isQuote q = true) (h : Inside q body)
    (rest : List Char) :
    pieces (q :: (body ++ q :: rest)) = .literal (q :: (body ++ [q])) :: pieces rest := by
  rw [pieces, if_pos hq, literalRest_inside h, literalRest_quote (ne_backslash_of_isQuote hq)]

example : pieces "\"a\"b".toList = [.literal "\"a\"".toList, .code 'b'] := by cbv

theorem pieces_openLiteral {q : Char} {body tail : List Char} (hq : isQuote q = true) (h : Inside q body)
    (ht : tail = [] ∨ tail = ['\\']) : pieces (q :: (body ++ tail)) = [.literal (q :: (body ++ tail))] := by
  rw [pieces, if_pos hq, literalRest_inside h, literalRest_open (ne_backslash_of_isQuote hq) ht, pieces]

theorem pieces_lineComment {body rest : List Char} (h : '\n' ∉ body)
    (hr : rest = [] ∨ rest.head? = some '\n') :
    pieces ('/' :: '/' :: (body ++ rest)) = .comment ('/' :: '/' :: body) :: pieces rest := by
  have hb : ∀ c ∈ '/' :: body, (c != '\n') = true := by
    intro c hc
    rcases List.mem_cons.mp hc with rfl | hc
    · decide
    · exact bne_iff_ne.mpr fun e => h (e ▸ hc)
  have hstop : ∀ c, rest.head? = some c → (c != '\n') = false := by
    intro c hc
    rcases hr with rfl | hr
    · cases hc
    · simpa using Option.some.inj (hc.symm.trans hr)
  rw [pieces, if_neg (by decide), if_pos ⟨rfl, rfl⟩, ← List.cons_append, takeWhile_append_of_stop hb hstop,
    dropWhile_append_of_stop hb hstop]

theorem pieces_blockComment {body : List Char} (h : ¬ ['*', '/'] <:+: body) (rest : List Char) :
    pieces ('/' :: '*' :: (body ++ '*' :: '/' :: rest)) =
      .comment ('/' :: '*' :: (body ++ ['*', '/'])) :: pieces rest := by
  rw [pieces, if_neg (by decide), if_neg (by simp), if_pos ⟨rfl, rfl⟩, List.tail_cons, blockRest_closed h]

theorem pieces_openComment {body : List Char} (h : ¬ ['*', '/'] <:+: body) :
    pieces ('/' :: '*' :: body) = [.comment ('/' :: '*' :: body)] := by
  rw [pieces, if_neg (by decide), if_neg (by simp), if_pos ⟨rfl, rfl⟩, List.tail_cons, blockRest_open h,
    pieces]

theorem pieces_code {c : Char} {rest : List Char} (hq : isQuote c = false)
    (hs : c = '/' → rest.head? ≠ some '/' ∧ rest.head? ≠ some '*') :
    pieces (c :: rest) = .code c :: pieces rest := by
  rw [pieces, if_neg (by simp [hq]), if_neg fun h => (hs h.1).1 h.2, if_neg fun h => (hs h.1).2 h.2]

theorem isQuote_of_isBlank {c : Char} (h : isBlank c = true) : isQuote c = false := by
  refine Bool.eq_false_iff.mpr fun hq => ?_
  unfold isQuote at hq
  simp only [Bool.or_eq_true, beq_iff_eq] at hq
  rcases hq with (rfl | rfl) | rfl <;> exact absurd h (by decide)

theorem ne_slash_of_isBlank {c : Char} (h : isBlank c = true) : c ≠ '/' := by
  rintro rfl
  exact absurd h (by decide)

/-- Every reading of a source is what its pieces say. -/
theorem tokens_eq_of_reads {cs : List Char} {ts : List Token} (h : Reads cs ts) :
    ts = (pieces cs).map tokenOf := by
  induction h with
  | nil => simp [pieces]
  | literal hq hb _ ih => rw [pieces_literal hq hb, ih]; rfl
  | openLiteral hq hb ht => rw [pieces_openLiteral hq hb ht]; rfl
  | lineComment hb hr _ ih => rw [pieces_lineComment hb hr, ih]; rfl
  | blockComment hb _ ih => rw [pieces_blockComment hb, ih]; rfl
  | openComment hb => rw [pieces_openComment hb]; rfl
  | blank hc _ ih =>
    rw [pieces_code (isQuote_of_isBlank hc) fun e => absurd e (ne_slash_of_isBlank hc), ih, List.map_cons,
      tokenOf, if_pos hc]
  | char hb hq hs _ ih => rw [pieces_code hq hs, ih, List.map_cons, tokenOf, if_neg (by simp [hb])]

/-- A text runs up to its first line feed or to its end. -/
theorem line_cases (cs : List Char) :
    ∃ body rest, '\n' ∉ body ∧ (rest = [] ∨ rest.head? = some '\n') ∧ cs = body ++ rest := by
  refine ⟨cs.takeWhile (· != '\n'), cs.dropWhile (· != '\n'), fun h => ?_, ?_,
    List.takeWhile_append_dropWhile.symm⟩
  · simpa using List.mem_takeWhile_imp h
  · cases h : cs.dropWhile (· != '\n') with
    | nil => exact .inl rfl
    | cons c rest =>
      have hc := List.head?_dropWhile_not (· != '\n') cs
      rw [h] at hc
      exact .inr (by simpa using hc)

/-- Every source has a reading: it begins with a literal, a comment, a blank or another character. -/
theorem exists_reads (cs : List Char) : ∃ ts, Reads cs ts := by
  induction hn : cs.length using Nat.strong_induction_on generalizing cs with
  | _ n ih => ?_
  subst hn
  cases cs with
  | nil => exact ⟨[], .nil⟩
  | cons c cs =>
    have htail : ∀ rest, rest.length ≤ cs.length → ∃ ts, Reads rest ts :=
      fun rest hl => ih rest.length (Nat.lt_succ_of_le hl) rest rfl
    by_cases hq : isQuote c = true
    · rcases inside_cases c cs with ⟨body, rest, hb, rfl⟩ | ⟨body, tail, hb, ht, rfl⟩
      · obtain ⟨ts, h⟩ := htail rest (by simp; omega)
        exact ⟨_, .literal hq hb h⟩
      · exact ⟨_, .openLiteral hq hb ht⟩
    rw [Bool.not_eq_true] at hq
    by_cases hl : c = '/' ∧ cs.head? = some '/'
    · obtain ⟨rfl, hl⟩ := hl
      obtain ⟨cs, rfl⟩ := List.head?_eq_some_iff.mp hl
      obtain ⟨body, rest, hb, hr, rfl⟩ := line_cases cs
      obtain ⟨ts, h⟩ := htail rest (by simp; omega)
      exact ⟨_, .lineComment hb hr h⟩
    by_cases hc : c = '/' ∧ cs.head? = some '*'
    · obtain ⟨rfl, hc⟩ := hc
      obtain ⟨cs, rfl⟩ := List.head?_eq_some_iff.mp hc
      rcases closing_cases cs with ⟨body, rest, hb, rfl⟩ | hb
      · obtain ⟨ts, h⟩ := htail rest (by simp; omega)
        exact ⟨_, .blockComment hb h⟩
      · exact ⟨_, .openComment hb⟩
    obtain ⟨ts, h⟩ := htail cs le_rfl
    cases hb : isBlank c with
    | true => exact ⟨_, .blank hb h⟩
    | false => exact ⟨_, .char hb hq (fun e => ⟨fun h => hl ⟨e, h⟩, fun h => hc ⟨e, h⟩⟩) h⟩

/-- **Every source has one reading**, which is what its pieces say. -/
theorem reads_iff {cs : List Char} {ts : List Token} : Reads cs ts ↔ ts = (pieces cs).map tokenOf := by
  refine ⟨tokens_eq_of_reads, ?_⟩
  rintro rfl
  obtain ⟨ts, h⟩ := exists_reads cs
  exact tokens_eq_of_reads h ▸ h

end ModuleBundler.Minify
