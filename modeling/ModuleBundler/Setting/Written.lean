import ModuleBundler.Setting.Basic
import ModuleBundler.Text.Blank
import ModuleBundler.Text.Digits
import ModuleBundler.Text.Hex
import ModuleBundler.Text.Search

/-!
# Written settings

How a setting is written where there is only text, as in the environment: `true` and `false`, numbers,
quoted texts, a character between apostrophes, `[a, b]` for a list, `{k=v}` for a table, and any other
text without commas, brackets and braces for itself, less the blanks around it. What is not written
in one of these ways is a text as it stands.
-/

namespace ModuleBundler.Setting

open Text

/-! ### Classes of characters -/

/-- The blanks that may stand around a written setting. -/
def isAsciiBlank (c : Char) : Bool := [' ', '\t', '\n', '\x0c', '\r'].contains c

/-- The text after its blanks. -/
def skipBlanks (cs : List Char) : List Char := cs.dropWhile isAsciiBlank

/-- The characters that end a text without quotes. -/
def isSeparator (c : Char) : Bool := [',', '\x7b', '\x7d', '[', ']'].contains c

/-- The characters of a key without quotes. -/
def isKeyChar (c : Char) : Bool := c.isAlphanum || c == '_' || c == '-'

/-! ### Texts without quotes -/

/-- A text without its sign, and whether the sign is a minus. -/
def splitSign : List Char → Bool × List Char
  | '-' :: rest => (true, rest)
  | '+' :: rest => (false, rest)
  | cs => (false, cs)

/-- The whole number that a text spells, if 64 bits hold it. -/
def readWhole? (cs : List Char) : Option Int :=
  match splitSign cs with
  | (true, ds) => (readDigits? ds).bind fun n =>
    if Int64.minValue.toInt ≤ -(n : Int) then some (-(n : Int)) else none
  | (false, ds) => (readDigits? ds).bind fun n => if n < UInt64.size then some (n : Int) else none

/-- Whether a text is nothing, or an exponent. -/
def endsAsExponent : List Char → Bool
  | [] => true
  | c :: rest => (c == 'e' || c == 'E') && (readDigits? (splitSign rest).2).isSome

/-- Whether a text spells a number with a decimal point. -/
def spellsDecimal (cs : List Char) : Bool :=
  let cs := (splitSign cs).2
  let whole := cs.takeWhile Char.isDigit
  match cs.dropWhile Char.isDigit with
  | '.' :: rest =>
    !(whole.isEmpty && (rest.takeWhile Char.isDigit).isEmpty) && endsAsExponent (rest.dropWhile Char.isDigit)
  | _ => false

/-- What a text without quotes stands for. -/
def ofPlain (cs : List Char) : Setting :=
  let cs := trim cs
  if spellsDecimal cs then .decimal
  else match readWhole? cs with
    | some n => .whole n
    | none => .text (String.ofList cs)

/-! ### Quoted texts -/

/-- The character of code point `n`, if there is one. -/
def charOf? (n : Nat) : Option Char := if n.isValidChar then some (Char.ofNat n) else none

/-- The character that a one-letter escape of a quoted text stands for. -/
def escaped? : Char → Option Char
  | '\x22' => some '\x22'
  | '\\' => some '\\'
  | 'b' => some '\x08'
  | 'f' => some '\x0c'
  | 'n' => some '\n'
  | 'r' => some '\r'
  | 't' => some '\t'
  | _ => none

/-- The rest of a quoted text after its opening quote, and what follows it. A tab is the only control
character that may stand in it as it is. -/
def readQuotedRest : List Char → Option (List Char × List Char)
  | [] => none
  | '\\' :: 'u' :: a :: b :: c :: d :: rest => do
    let x ← charOf? (← hexNumber? [a, b, c, d])
    let (s, after) ← readQuotedRest rest
    return (x :: s, after)
  | '\\' :: 'U' :: a :: b :: c :: d :: e :: f :: g :: h :: rest => do
    let x ← charOf? (← hexNumber? [a, b, c, d, e, f, g, h])
    let (s, after) ← readQuotedRest rest
    return (x :: s, after)
  | '\\' :: c :: rest => do
    let x ← escaped? c
    let (s, after) ← readQuotedRest rest
    return (x :: s, after)
  | c :: rest =>
    if c = '\x22' then some ([], rest)
    else if c = '\\' ∨ (c.toNat < 0x20 ∧ c ≠ '\t') ∨ c.toNat = 0x7f then none
    else do
      let (s, after) ← readQuotedRest rest
      return (c :: s, after)

/-! ### Settings, lists and tables -/

/-- The key that a text begins with, in quotes or not. -/
def readKey (cs : List Char) : Option (List Char × List Char) :=
  match cs with
  | '\x22' :: rest => readQuotedRest rest
  | _ =>
    let key := cs.takeWhile isKeyChar
    if key.isEmpty then none else some (key, cs.dropWhile isKeyChar)

mutual

/-- The setting that a text begins with, and the rest of the text after the blanks that follow it. The
bound is above the length of the text. -/
def readSetting : Nat → List Char → Option (Setting × List Char)
  | 0, _ => none
  | bound + 1, cs => do
    let (setting, rest) ← readBare bound (skipBlanks cs)
    return (setting, skipBlanks rest)

/-- The setting that a text begins with, without blanks around it. -/
def readBare : Nat → List Char → Option (Setting × List Char)
  | 0, _ => none
  | bound + 1, cs =>
    match dropWord? "true".toList cs, dropWord? "false".toList cs with
    | some rest, _ => some (.bool true, rest)
    | none, some rest => some (.bool false, rest)
    | none, none =>
      match cs with
      | '\x7b' :: rest => (readEntries bound rest).map fun (es, after) => (.table (layEntries [] es), after)
      | '[' :: rest => (readList bound rest).map fun (xs, after) => (.list xs, after)
      | '\x22' :: rest => (readQuotedRest rest).map fun (s, after) => (.text (String.ofList s), after)
      | '\x27' :: c :: '\x27' :: rest => some (.char c, rest)
      | '\x27' :: _ => none
      | _ => some (ofPlain (cs.takeWhile fun c => !isSeparator c), cs.dropWhile fun c => !isSeparator c)

/-- The elements of a list up to its closing bracket. A comma may stand after the last one. -/
def readList : Nat → List Char → Option (List Setting × List Char)
  | 0, _ => none
  | bound + 1, cs =>
    match cs with
    | ']' :: after => some ([], after)
    | _ => do
      let (x, rest) ← readSetting bound cs
      match rest with
      | ',' :: rest =>
        let (xs, after) ← readList bound rest
        return (x :: xs, after)
      | ']' :: after => return ([x], after)
      | _ => none

/-- The entries of a table up to its closing brace. A comma may stand after the last one. -/
def readEntries : Nat → List Char → Option (List (String × Setting) × List Char)
  | 0, _ => none
  | bound + 1, cs =>
    match cs with
    | '\x7d' :: after => some ([], after)
    | _ => do
      let (key, rest) ← readKey (skipBlanks cs)
      match skipBlanks rest with
      | '=' :: rest =>
        let (x, rest) ← readSetting bound rest
        let entry := (String.ofList key, x)
        match rest with
        | ',' :: rest =>
          let (es, after) ← readEntries bound rest
          return (entry :: es, after)
        | '\x7d' :: after => return ([entry], after)
        | _ => none
      | _ => none

end

/-- The setting that a text stands for. -/
def ofText (s : String) : Setting :=
  let cs := s.toList
  match readSetting (3 * cs.length + 3) cs with
  | some (setting, []) => setting
  | _ => .text s

end ModuleBundler.Setting
