import ModuleBundler.Json.Basic

/-!
# Taking values out of JSON

A record is read from an object or from an array. In an object the members of other names are passed
over, whatever they hold, but a name of the record may stand there only once. In an array the fields
stand in the order of their names.
-/

namespace ModuleBundler.Json

/-- The text of a string. -/
def asText? : Json → Option String
  | .string s => s
  | _ => none

/-- The truth value of a boolean. -/
def asBool? : Json → Option Bool
  | .bool b => some b
  | _ => none

/-- A whole number that fits into 64 bits. -/
def asUInt64? : Json → Option UInt64
  | .number (.whole n) => if 0 ≤ n ∧ n < UInt64.size then some (UInt64.ofNat n.toNat) else none
  | _ => none

/-- The elements of an array, each read by `read`. -/
def asList? {α : Type} (read : Json → Option α) : Json → Option (List α)
  | .array vs => vs.mapM read
  | _ => none

/-- Nothing for `null`, else the value read by `read`. -/
def asNullable? {α : Type} (read : Json → Option α) : Json → Option (Option α)
  | .null => some none
  | v => (read v).map some

/-- The fields of a record by name, for a record whose fields are called `names` and which needs at
least the first `least` of them when it is written as an array. -/
def fields? (names : List String) (least : Nat) : Json → Option (List (String × Json))
  | .object members => do
    let members ← members.mapM fun m => m.1.map fun name => (name, m.2)
    let known := members.filter fun m => names.contains m.1
    if (known.map (·.1)).Nodup then some known else none
  | .array vs => if least ≤ vs.length ∧ vs.length ≤ names.length then some (names.zip vs) else none
  | _ => none

/-- The field called `name`, which has to be there. -/
def field? {α : Type} (fields : List (String × Json)) (name : String) (read : Json → Option α) :
    Option α :=
  (fields.lookup name).bind read

/-- The field called `name`, or `default` where it is absent. -/
def fieldOr? {α : Type} (fields : List (String × Json)) (name : String) (default : α)
    (read : Json → Option α) : Option α :=
  match fields.lookup name with
  | none => some default
  | some v => read v

end ModuleBundler.Json
