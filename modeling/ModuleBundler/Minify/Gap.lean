import ModuleBundler.Minify.Mask
import ModuleBundler.Text.Alphabetic
import ModuleBundler.Text.Blank
import ModuleBundler.Text.Numeric

/-!
# Gaps between characters of code

Blanks and comments make a gap. A gap is dropped, unless the characters on its two sides would be read
as something else side by side: two characters of words would become one word, `+ +` and `- -` would
become an operator, and a slash before a slash or a star would open a comment. Such a gap becomes one
space. The marks around the number of a literal count as characters of words, so that a literal keeps
its distance from a word.
-/

namespace ModuleBundler.Minify

open Text

/-! ### What a gap separates -/

/-- Whether `c` is a character of words, names or numbers, or belongs to the number of a literal. -/
def isWordLike (c : Char) : Bool :=
  isAlphabetic c || isDecimal c || isOtherNumber c || c == '_' || c == '$' || c == openMark || c == closeMark

/-- Whether `left` and `right` must not stand side by side where a gap was between them. -/
def needsSpace (left right : Char) : Bool :=
  (isWordLike left && isWordLike right)
    || (left == '+' && right == '+')
    || (left == '-' && right == '-')
    || (left == '/' && (right == '/' || right == '*'))

/-! ### Dropping comments and gaps -/

/-- What the reader of a masked text stands in. -/
inductive Scan where
  | code
  | lineComment
  | blockComment
  deriving DecidableEq, Repr

/-- A masked text without its comments and gaps. `last` is the last character written so far, and `gap`
tells whether a gap was met after it. -/
def collapse : Scan → Option Char → Bool → List Char → List Char
  | _, _, _, [] => []
  | .code, last, _, '/' :: '/' :: cs => collapse .lineComment last true cs
  | .code, last, _, '/' :: '*' :: cs => collapse .blockComment last true cs
  | .code, last, gap, c :: cs =>
    if isBlank c then collapse .code last true cs
    else if gap && last.any (needsSpace · c) then ' ' :: c :: collapse .code (some c) false cs
    else c :: collapse .code (some c) false cs
  | .lineComment, last, gap, c :: cs =>
    if c = '\n' then collapse .code last gap cs else collapse .lineComment last gap cs
  | .blockComment, last, gap, '*' :: '/' :: cs => collapse .code last gap cs
  | .blockComment, last, gap, _ :: cs => collapse .blockComment last gap cs

/-! ### Tightening -/

/-- The operators and brackets that need no space beside them. -/
def isPunctuation (c : Char) : Bool := "+-*/%=<>!&|^~?:,;\x7b\x7d[]()".toList.contains c

/-- A text without the spaces beside operators and brackets, as far as they may go. `before` is the
character before the text. -/
def tighten (before : Option Char) : List Char → List Char
  | [] => []
  | c :: cs =>
    match c == ' ', before, cs.head? with
    | true, some left, some right =>
      if (isPunctuation left || isPunctuation right) && !needsSpace left right then tighten (some c) cs
      else c :: tighten (some c) cs
    | _, _, _ => c :: tighten (some c) cs

end ModuleBundler.Minify
