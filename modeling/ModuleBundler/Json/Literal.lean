import ModuleBundler.Text.Hex

/-!
# String literals of JSON

Writing escapes the quote, the backslash and the control characters below the space, and nothing
else. Reading knows every escape of JSON. A `\u` escape spells a unit of UTF-16: two of them that
form a surrogate pair spell one character, and one that stands alone spells none.
-/

namespace ModuleBundler.Json

open Text

/-! ### Writing -/

/-- A character as it stands in a string literal. -/
def escapeChar (c : Char) : List Char :=
  if c = '\x22' then ['\\', '\x22']
  else if c = '\\' then ['\\', '\\']
  else if c = '\x08' then ['\\', 'b']
  else if c = '\t' then ['\\', 't']
  else if c = '\n' then ['\\', 'n']
  else if c = '\x0c' then ['\\', 'f']
  else if c = '\r' then ['\\', 'r']
  else if c.toNat < 0x20 then ['\\', 'u', '0', '0', hexDigit (c.toNat / 16), hexDigit (c.toNat % 16)]
  else [c]

/-- The literal that spells `s`. -/
def literalChars (s : List Char) : List Char :=
  '\x22' :: (s.flatMap escapeChar ++ ['\x22'])

/-! ### Reading -/

/-- What one piece of a literal spells. -/
inductive LiteralUnit where
  | char (c : Char)
  /-- A unit of UTF-16, from a `\u` escape. -/
  | unit16 (n : Nat)
  deriving DecidableEq, Repr

/-- The character that a one-letter escape spells. -/
def shortEscape? (c : Char) : Option Char :=
  if c = '\x22' then some '\x22'
  else if c = '\\' then some '\\'
  else if c = '/' then some '/'
  else if c = 'b' then some '\x08'
  else if c = 'f' then some '\x0c'
  else if c = 'n' then some '\n'
  else if c = 'r' then some '\r'
  else if c = 't' then some '\t'
  else none

/-- Reads the rest of a literal after its opening quote: its pieces, and the text after the closing
quote. -/
def readUnits : List Char → Option (List LiteralUnit × List Char)
  | [] => none
  | '\\' :: 'u' :: a :: b :: c :: d :: rest => do
    let n ← hexNumber? [a, b, c, d]
    let (units, after) ← readUnits rest
    return (.unit16 n :: units, after)
  | '\\' :: e :: rest => do
    let c ← shortEscape? e
    let (units, after) ← readUnits rest
    return (.char c :: units, after)
  | c :: rest =>
    if c = '\x22' then some ([], rest)
    else if c.toNat < 0x20 ∨ c = '\\' then none
    else do
      let (units, after) ← readUnits rest
      return (.char c :: units, after)

/-- Whether `n` is the first half of a surrogate pair. -/
def isHighSurrogate (n : Nat) : Bool := 0xD800 ≤ n && n < 0xDC00

/-- Whether `n` is the second half of a surrogate pair. -/
def isLowSurrogate (n : Nat) : Bool := 0xDC00 ≤ n && n < 0xE000

/-- The text that the pieces of a literal spell, if they spell one. -/
def textOfUnits : List LiteralUnit → Option (List Char)
  | [] => some []
  | .char c :: rest => (textOfUnits rest).map (c :: ·)
  | .unit16 n :: rest =>
    if isLowSurrogate n then none
    else if isHighSurrogate n then
      match rest with
      | .unit16 m :: rest =>
        if isLowSurrogate m then
          (textOfUnits rest).map (Char.ofNat (0x10000 + (n - 0xD800) * 0x400 + (m - 0xDC00)) :: ·)
        else none
      | _ => none
    else (textOfUnits rest).map (Char.ofNat n :: ·)

/-- Reads the rest of a literal after its opening quote: its text, `none` if it spells no text, and
what follows the closing quote. -/
def readLiteral (cs : List Char) : Option (Option String × List Char) :=
  (readUnits cs).map fun (units, after) => ((textOfUnits units).map String.ofList, after)

end ModuleBundler.Json
