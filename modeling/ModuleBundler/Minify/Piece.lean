/-!
# Pieces of a source

Read from left to right, a source falls into literals, comments and single characters of code. A
literal runs from a quote to the next quote of its kind that no backslash stands before; a line
comment stops short of the line feed; a block comment ends with its closing mark. Each of them may
also run to the end of the source.

No piece is left out, so the pieces in order are the source (`flatMap_text_pieces`).
-/

namespace ModuleBundler.Minify

/-- A piece of a source. -/
inductive Piece where
  | code (c : Char)
  /-- A string or a template, with its quotes. -/
  | literal (text : List Char)
  /-- A comment, with its marks. -/
  | comment (text : List Char)
  deriving DecidableEq, Repr

/-- A piece as it stands in the source. -/
def Piece.text : Piece → List Char
  | .code c => [c]
  | .literal t => t
  | .comment t => t

/-- Whether `c` opens a literal. -/
def isQuote (c : Char) : Bool := c == '\x27' || c == '\x22' || c == '\x60'

/-- The rest of a literal that was opened by `quote`, and what follows it. -/
def literalRest (quote : Char) : List Char → List Char × List Char
  | [] => ([], [])
  | '\\' :: c :: cs =>
    let (body, after) := literalRest quote cs
    ('\\' :: c :: body, after)
  | c :: cs =>
    if c = quote then ([c], cs)
    else
      let (body, after) := literalRest quote cs
      (c :: body, after)

/-- The rest of a block comment, and what follows it. -/
def blockRest : List Char → List Char × List Char
  | [] => ([], [])
  | '*' :: '/' :: cs => (['*', '/'], cs)
  | c :: cs =>
    let (body, after) := blockRest cs
    (c :: body, after)

theorem literalRest_append (quote : Char) (cs : List Char) :
    (literalRest quote cs).1 ++ (literalRest quote cs).2 = cs := by
  fun_induction literalRest quote cs <;> simp_all

theorem blockRest_append (cs : List Char) : (blockRest cs).1 ++ (blockRest cs).2 = cs := by
  fun_induction blockRest cs <;> simp_all

/-- What follows a literal is not longer than what was left when it was opened. -/
theorem length_literalRest_le (quote : Char) (cs : List Char) :
    (literalRest quote cs).2.length ≤ cs.length := by
  have h := congrArg List.length (literalRest_append quote cs)
  rw [List.length_append] at h
  omega

/-- What follows a block comment is not longer than what was left when it was opened. -/
theorem length_blockRest_le (cs : List Char) : (blockRest cs).2.length ≤ cs.length := by
  have h := congrArg List.length (blockRest_append cs)
  rw [List.length_append] at h
  omega

/-- The pieces of a source. -/
def pieces : List Char → List Piece
  | [] => []
  | c :: cs =>
    if isQuote c then
      .literal (c :: (literalRest c cs).1) :: pieces (literalRest c cs).2
    else if c = '/' ∧ cs.head? = some '/' then
      .comment (c :: cs.takeWhile (· != '\n')) :: pieces (cs.dropWhile (· != '\n'))
    else if c = '/' ∧ cs.head? = some '*' then
      .comment (c :: '*' :: (blockRest cs.tail).1) :: pieces (blockRest cs.tail).2
    else .code c :: pieces cs
termination_by cs => cs.length
decreasing_by
  · exact Nat.lt_succ_of_le (length_literalRest_le c cs)
  · exact Nat.lt_succ_of_le (List.dropWhile_suffix _).length_le
  · refine Nat.lt_succ_of_le (Nat.le_trans (length_blockRest_le cs.tail) ?_)
    simp
  · exact Nat.lt_succ_self _

/-- The pieces in order are the source. -/
theorem flatMap_text_pieces (cs : List Char) : (pieces cs).flatMap Piece.text = cs := by
  fun_induction pieces cs with
  | case1 => rfl
  | case2 c cs h ih => simp [Piece.text, ih, literalRest_append]
  | case3 c cs h h' ih => simp [Piece.text, ih]
  | case4 c cs h h' h'' ih =>
    obtain ⟨t, rfl⟩ : ∃ t, cs = '*' :: t := by
      cases cs with
      | nil => simp at h''
      | cons x t => exact ⟨t, by simpa using h''.2⟩
    simp only [List.tail_cons] at ih
    simp [Piece.text, ih, blockRest_append]
  | case5 c cs h h' h'' ih => simp [Piece.text, ih]

end ModuleBundler.Minify
