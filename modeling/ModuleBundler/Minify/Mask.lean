import ModuleBundler.Minify.Piece
import ModuleBundler.Text.Digits
import ModuleBundler.Text.Search

/-!
# Masking literals

While blanks and comments are taken out of a source, each literal is represented by its number between
two marks, and is put back afterwards. The marks are two private characters. A source may hold these
characters itself; a number between them then stands for a literal if there is one of that number, and
any other opening mark stands for itself.
-/

namespace ModuleBundler.Minify

/-- The mark before the number of a literal. -/
def openMark : Char := '\ue000'

/-- The mark after the number of a literal. -/
def closeMark : Char := '\ue001'

/-- What represents the literal of number `n`. -/
def placeholder (n : Nat) : List Char := openMark :: ((toString n).toList ++ [closeMark])

/-- The text of pieces, with their literals represented by `n`, `n + 1`, … -/
def maskFrom (n : Nat) : List Piece → List Char
  | [] => []
  | .literal _ :: rest => placeholder n ++ maskFrom (n + 1) rest
  | piece :: rest => piece.text ++ maskFrom n rest

theorem maskFrom_code (n : Nat) (c : Char) (ps : List Piece) : maskFrom n (.code c :: ps) = c :: maskFrom n ps := rfl

theorem maskFrom_comment (n : Nat) (t : List Char) (ps : List Piece) :
    maskFrom n (.comment t :: ps) = t ++ maskFrom n ps := rfl

/-- The text of pieces, with numbers for their literals. -/
def mask (ps : List Piece) : List Char := maskFrom 0 ps

/-- The literals among pieces, in order. -/
def literals (ps : List Piece) : List (List Char) :=
  ps.filterMap fun
    | .literal t => some t
    | _ => none

/-- The number that a text is: digits, with or without a plus sign before them. -/
def readIndex? : List Char → Option Nat
  | '+' :: ds => Text.readDigits? ds
  | ds => Text.readDigits? ds

/-- The literal that a text after an opening mark stands for, and the text after the closing mark. -/
def readPlaceholder? (table : List (List Char)) (cs : List Char) : Option (List Char × List Char) :=
  match cs.dropWhile (· != closeMark) with
  | [] => none
  | _ :: after => do
    let n ← readIndex? (cs.takeWhile (· != closeMark))
    return (← table[n]?, after)

theorem length_readPlaceholder?_lt {table : List (List Char)} {cs t after : List Char}
    (h : readPlaceholder? table cs = some (t, after)) : after.length < cs.length := by
  unfold readPlaceholder? at h
  have hle := (List.dropWhile_suffix (l := cs) (· != closeMark)).length_le
  split at h
  · simp at h
  · next x after' e =>
    rw [e] at hle
    simp only [Option.bind_eq_bind, Option.bind_eq_some_iff, Option.pure_def, Option.some.injEq,
      Prod.mk.injEq] at h
    obtain ⟨_, _, _, _, _, rfl⟩ := h
    rw [List.length_cons] at hle
    omega

/-- A masked text with the literals of `table` in place of their numbers. -/
def restore (table : List (List Char)) : List Char → List Char
  | [] => []
  | c :: cs =>
    if c = openMark then
      match _h : readPlaceholder? table cs with
      | some (t, after) => t ++ restore table after
      | none => c :: restore table cs
    else c :: restore table cs
termination_by cs => cs.length
decreasing_by
  · exact Nat.lt_succ_of_lt (length_readPlaceholder?_lt _h)
  · exact Nat.lt_succ_self _
  · exact Nat.lt_succ_self _

end ModuleBundler.Minify
