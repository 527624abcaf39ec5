import ModuleBundler.Json.Basic
import ModuleBundler.Json.Literal
import ModuleBundler.Text.Digits
import ModuleBundler.Text.Search

/-!
# Reading JSON

A text is accepted when it is one JSON value with blanks around it. Objects keep their members in the
order of the text, repeated ones included, and strings need not be texts (`Json.string`).

The readers of values, elements and members call one another on ever shorter texts; the first
argument, which bounds the calls, is set above the length of the text.
-/

namespace ModuleBundler.Json

/-! ### Gaps and digits -/

/-- Whether `c` may stand between two tokens. -/
def isGap (c : Char) : Bool := c == ' ' || c == '\n' || c == '\t' || c == '\r'

/-- The text from its first token on. -/
def skipGap (cs : List Char) : List Char := cs.dropWhile isGap

/-- The digits that a text begins with, and the rest of it. -/
def spanDigits (cs : List Char) : List Char × List Char :=
  (cs.takeWhile Char.isDigit, cs.dropWhile Char.isDigit)

/-! ### Numbers -/

/-- The digits after a point, if a text begins with a point; at least one has to follow it. -/
def readFraction (cs : List Char) : Option (List Char × List Char) :=
  match cs with
  | '.' :: rest =>
    let (ds, after) := spanDigits rest
    if ds.isEmpty then none else some (ds, after)
  | _ => some ([], cs)

/-- The exponent, if a text begins with one; at least one digit has to follow its sign. -/
def readExponent (cs : List Char) : Option (Option Int × List Char) :=
  match cs with
  | c :: rest =>
    if c = 'e' ∨ c = 'E' then
      let (negative, rest) := match rest with
        | '-' :: rest => (true, rest)
        | '+' :: rest => (false, rest)
        | _ => (false, rest)
      let (ds, after) := spanDigits rest
      if ds.isEmpty then none
      else some (some (if negative then - (Text.digitsValue ds : Int) else Text.digitsValue ds), after)
    else some (none, cs)
  | [] => some (none, cs)

/-- The number without its sign that a text begins with: no zero before another digit. -/
def readMagnitude (negative : Bool) (cs : List Char) : Option (JsonNumber × List Char) := do
  let (ds, rest) := spanDigits cs
  if ds.isEmpty ∨ (ds.head? = some '0' ∧ ds.length ≠ 1) then none
  let (fs, rest) ← readFraction rest
  let (e, rest) ← readExponent rest
  let m : Int := Text.digitsValue (ds ++ fs)
  let signed : Int := if negative then -m else m
  if fs.isEmpty ∧ e.isNone ∧ ¬ (negative ∧ m = 0) then return (.whole signed, rest)
  else return (.decimal signed (e.getD 0 - fs.length), rest)

/-- The number that a text begins with. -/
def readNumber : List Char → Option (JsonNumber × List Char)
  | '-' :: rest => readMagnitude true rest
  | cs => readMagnitude false cs

/-! ### Values -/

mutual

/-- The value that a text begins with, and the rest of the text. -/
def readValue : Nat → List Char → Option (Json × List Char)
  | 0, _ => none
  | bound + 1, cs =>
    match skipGap cs with
    | [] => none
    | c :: rest =>
      if c = '\x22' then (readLiteral rest).map fun (s, after) => (.string s, after)
      else if c = '[' then
        match skipGap rest with
        | ']' :: after => some (.array [], after)
        | _ => (readElements bound rest).map fun (vs, after) => (.array vs, after)
      else if c = '\x7b' then
        match skipGap rest with
        | '\x7d' :: after => some (.object [], after)
        | _ => (readMembers bound rest).map fun (ms, after) => (.object ms, after)
      else if c = 'n' then (Text.dropWord? "ull".toList rest).map fun after => (.null, after)
      else if c = 't' then (Text.dropWord? "rue".toList rest).map fun after => (.bool true, after)
      else if c = 'f' then (Text.dropWord? "alse".toList rest).map fun after => (.bool false, after)
      else (readNumber (c :: rest)).map fun (n, after) => (.number n, after)

/-- The elements of an array up to its closing bracket; at least one. -/
def readElements : Nat → List Char → Option (List Json × List Char)
  | 0, _ => none
  | bound + 1, cs => do
    let (v, rest) ← readValue bound cs
    match skipGap rest with
    | ',' :: rest =>
      let (vs, after) ← readElements bound rest
      return (v :: vs, after)
    | ']' :: after => return ([v], after)
    | _ => none

/-- The members of an object up to its closing brace; at least one. -/
def readMembers : Nat → List Char → Option (List (Option String × Json) × List Char)
  | 0, _ => none
  | bound + 1, cs => do
    match skipGap cs with
    | '\x22' :: rest =>
      let (k, rest) ← readLiteral rest
      match skipGap rest with
      | ':' :: rest =>
        let (v, rest) ← readValue bound rest
        match skipGap rest with
        | ',' :: rest =>
          let (ms, after) ← readMembers bound rest
          return ((k, v) :: ms, after)
        | '\x7d' :: after => return ([(k, v)], after)
        | _ => none
      | _ => none
    | _ => none

end

/-- The value that a text is, if it is one. -/
def parse? (s : String) : Option Json := do
  let cs := s.toList
  let (v, rest) ← readValue (2 * cs.length + 1) cs
  if (skipGap rest).isEmpty then some v else none

end ModuleBundler.Json
