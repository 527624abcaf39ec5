/-!
# Tables

A table is a list of pairs in which every key stands at most once, as long as it is built with the
operations below. Writing to a key that is present keeps the key's place.
-/

namespace ModuleBundler

/-- Values by key. -/
abbrev Table (κ ν : Type) := List (κ × ν)

namespace Table

variable {κ ν : Type} [DecidableEq κ]

/-- The value stored under `key`. -/
def get? (table : Table κ ν) (key : κ) : Option ν :=
  (table.find? fun entry => decide (entry.1 = key)).map (·.2)

/-- Whether a value is stored under `key`. -/
def has (table : Table κ ν) (key : κ) : Bool := (get? table key).isSome

/-- The table with `value` stored under `key`. -/
def put (table : Table κ ν) (key : κ) (value : ν) : Table κ ν :=
  match table with
  | [] => [(key, value)]
  | entry :: rest => if entry.1 = key then (key, value) :: rest else entry :: put rest key value

/-- The table without `key`. -/
def drop (table : Table κ ν) (key : κ) : Table κ ν :=
  match table with
  | [] => []
  | entry :: rest => if entry.1 = key then drop rest key else entry :: drop rest key

@[simp] theorem get?_nil (key : κ) : get? ([] : Table κ ν) key = none := rfl

theorem get?_cons (entry : κ × ν) (table : Table κ ν) (key : κ) :
    get? (entry :: table) key = if entry.1 = key then some entry.2 else get? table key := by
  by_cases h : entry.1 = key <;> simp [get?, h]

/-- Writing changes the written key only. -/
theorem get?_put (table : Table κ ν) (key other : κ) (value : ν) :
    get? (put table key value) other = if key = other then some value else get? table other := by
  induction table with
  | nil => simp [put, get?_cons]
  | cons entry table ih => grind [put, get?_cons]

/-- Dropping a key leaves the others as they are. -/
theorem get?_drop (table : Table κ ν) (key other : κ) :
    get? (drop table key) other = if key = other then none else get? table other := by
  induction table with
  | nil => simp [drop]
  | cons entry table ih => grind [drop, get?_cons]

end Table

end ModuleBundler
