/-!
# JSON values

A value keeps what a reader of JSON can still tell apart: whole numbers from decimal ones, the order of
the members of an object, and a member that is repeated. A string literal can spell half of a
surrogate pair, which is no character; such a string is `none`, and it is harmless as long as nobody
asks for its text.
-/

namespace ModuleBundler

/-- A number as it was written: whole, or with a fraction or an exponent. A written `-0` is decimal,
since no whole number has that sign. -/
inductive JsonNumber where
  | whole (value : Int)
  /-- `mantissa` times ten to the `exponent`. -/
  | decimal (mantissa : Int) (exponent : Int)
  deriving DecidableEq, Repr

/-- A JSON value. -/
inductive Json where
  | null
  | bool (value : Bool)
  | number (value : JsonNumber)
  | string (text : Option String)
  | array (elements : List Json)
  | object (members : List (Option String × Json))
  deriving Repr, Inhabited

namespace Json

/-- The value that holds the text `s`. -/
def ofText (s : String) : Json := .string (some s)

/-- The value that holds the number `n`. -/
def ofNat (n : Nat) : Json := .number (.whole n)

/-- The object with these members. -/
def ofMembers (members : List (String × Json)) : Json :=
  .object (members.map fun m => (some m.1, m.2))

/-- `null` for nothing. -/
def ofOption {α : Type} (f : α → Json) : Option α → Json
  | none => .null
  | some a => f a

/-- The array of the values of a list. -/
def ofList {α : Type} (f : α → Json) (xs : List α) : Json := .array (xs.map f)

end Json

end ModuleBundler
