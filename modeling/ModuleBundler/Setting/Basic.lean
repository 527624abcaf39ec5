import ModuleBundler.Json.Basic
import ModuleBundler.Table

/-!
# Settings

The values that options can be set to before anybody knows which option is meant: those of a settings
file, and those of the environment. Settings come in layers, and a table in a higher layer is laid over
a table in a lower one key by key; any other setting takes the place of what is below it.
-/

namespace ModuleBundler

/-- The value of a setting. -/
inductive Setting where
  | null
  | bool (value : Bool)
  | whole (value : Int)
  /-- A number with a fraction, an exponent, or more digits than 64 bits hold. No option takes one. -/
  | decimal
  | char (c : Char)
  | text (s : String)
  | list (elements : List Setting)
  | table (entries : List (String × Setting))
  deriving Repr, Inhabited

/-- How many arrays and objects may stand one in the other in a settings file. -/
def nestingLimit : Nat := 127

/-- Whether a number of this mantissa and exponent has a finite double nearest to it. -/
def fitsDouble (mantissa exponent : Int) : Bool :=
  let size : Int := (toString mantissa.natAbs).length + exponent
  if mantissa = 0 ∨ size ≤ 308 then true
  else if 310 < size then false
  else
    let limit := Nat.pow 2 1024 - Nat.pow 2 970
    if 0 ≤ exponent then mantissa.natAbs * Nat.pow 10 exponent.toNat < limit
    else mantissa.natAbs < limit * Nat.pow 10 (-exponent).toNat

namespace Setting

/-- A number of a settings file. -/
def ofNumber? : JsonNumber → Option Setting
  | .whole n =>
    if Int64.minValue.toInt ≤ n ∧ n < UInt64.size then some (.whole n)
    else if fitsDouble n 0 then some .decimal
    else none
  | .decimal m e => if fitsDouble m e then some .decimal else none

mutual

/-- A value of a settings file, with `levels` arrays and objects at most one in the other. -/
def ofJson? (levels : Nat) : Json → Option Setting
  | .null => some .null
  | .bool b => some (.bool b)
  | .number n => ofNumber? n
  | .string s => s.map .text
  | .array vs => if levels = 0 then none else (ofElements? (levels - 1) vs).map .list
  | .object ms => if levels = 0 then none else (ofMembers? (levels - 1) [] ms).map .table

/-- The elements of an array as settings. -/
def ofElements? (levels : Nat) : List Json → Option (List Setting)
  | [] => some []
  | v :: vs => do return (← ofJson? levels v) :: (← ofElements? levels vs)

/-- The members of an object laid into a table. A repeated member keeps its last value. -/
def ofMembers? (levels : Nat) (entries : Table String Setting) :
    List (Option String × Json) → Option (Table String Setting)
  | [] => some entries
  | (k, v) :: ms => do ofMembers? levels (entries.put (← k) (← ofJson? levels v)) ms

end

mutual

/-- The setting `upper` laid over the setting `lower`. -/
def layOver (lower : Setting) : Setting → Setting
  | .table upper =>
    match lower with
    | .table entries => .table (layEntries entries upper)
    | _ => .table upper
  | upper => upper

/-- Entries laid over a table. -/
def layEntries (lower : Table String Setting) : List (String × Setting) → Table String Setting
  | [] => lower
  | (k, v) :: upper =>
    let v := match lower.get? k with
      | some below => layOver below v
      | none => v
    layEntries (lower.put k v) upper

end

end Setting

end ModuleBundler
