import ModuleBundler.Text.Search

/-!
# Paths

A path is kept as the text it was written as, and it is printed as that text. What it means is the
list of its parts: empty segments and `.` segments say nothing and are no parts, apart from a `.`
that begins a relative path. Two paths with the same parts name the same place.

`Path.clean` resolves `.` and `..` by the text alone, without asking a file system.
-/

namespace ModuleBundler

/-! ### Parts -/

/-- A path as it was written. -/
structure Path where
  text : String
  deriving DecidableEq, Repr, Inhabited

/-- One step of a path. -/
inductive Part where
  /-- The slash that begins an absolute path. -/
  | root
  /-- The `.` that begins a relative path. -/
  | here
  /-- A `..`. -/
  | up
  /-- The name of a file or a directory. -/
  | name (text : String)
  deriving DecidableEq, Repr

/-- The pieces of a text between its slashes. -/
def segments (cs : List Char) : List (List Char) := Text.splitOn '/' cs

namespace Part

/-- The part that a segment stands for, if it stands for one. -/
def ofSegment (segment : List Char) : Option Part :=
  if segment = [] ∨ segment = ['.'] then none
  else if segment = ['.', '.'] then some .up
  else some (.name (String.ofList segment))

/-- The part as it is written. -/
def text : Part → String
  | .root => "/"
  | .here => "."
  | .up => ".."
  | .name s => s

end Part

/-- Parts as a text, with one slash between two of them. -/
def spellParts : List Part → List Char
  | [] => []
  | [p] => p.text.toList
  | .root :: rest => '/' :: spellParts rest
  | p :: rest => p.text.toList ++ '/' :: spellParts rest

namespace Path

/-- Whether the path begins at the root. -/
def isAbsolute (p : Path) : Bool := p.text.toList.head? == some '/'

/-- The parts of a path. -/
def parts (p : Path) : List Part :=
  let pieces := segments p.text.toList
  let body := pieces.filterMap Part.ofSegment
  if p.isAbsolute then .root :: body
  else if pieces.head? = some ['.'] then .here :: body
  else body

/-- The path with these parts. -/
def ofParts (ps : List Part) : Path := ⟨String.ofList (spellParts ps)⟩

/-! ### Joining and taking apart -/

/-- The path `q` as seen from the directory `p`: an absolute `q` stands for itself. -/
def join (p q : Path) : Path :=
  if q.isAbsolute then q
  else if p.text.toList.getLast?.all (· == '/') then ⟨p.text ++ q.text⟩
  else ⟨p.text ++ "/" ++ q.text⟩

/-- The path without its last part; the root and the empty path have no parent. -/
def parent? (p : Path) : Option Path :=
  match p.parts.reverse with
  | [] => none
  | .root :: _ => none
  | _ :: before => some (ofParts before.reverse)

/-! ### Cleaning -/

/-- One part more on a stack of cleaned parts, the last part on top: a `..` takes a name away, stays
where there is no name to take away, and is dropped at the root. -/
def pushPart (stack : List Part) (part : Part) : List Part :=
  match part, stack with
  | .here, _ => stack
  | .up, .root :: _ => stack
  | .up, .name _ :: below => below
  | part, _ => part :: stack

/-- The parts that are left when `.` and `..` are resolved. -/
def cleanParts (ps : List Part) : List Part := (ps.foldl pushPart []).reverse

/-- The path with `.` and `..` resolved by the text alone; what resolves to nothing is `.`. -/
def clean (p : Path) : Path :=
  match cleanParts p.parts with
  | [] => ⟨"."⟩
  | ps => ofParts ps

/-! ### Comparing -/

/-- The parts of `p` below `base`, if `p` is `base` or lies below it. -/
def below? (p base : Path) : Option (List Part) :=
  let bs := base.parts
  if bs.isPrefixOf p.parts then some (p.parts.drop bs.length) else none

/-- Whether `p` is `base` or lies below it. -/
def isWithin (p base : Path) : Bool := base.parts.isPrefixOf p.parts

/-- The path with `ending` written after it. -/
def append (p : Path) (ending : String) : Path := ⟨p.text ++ ending⟩

/-- Whether the text of the path ends in one of `endings`. -/
def endsInOneOf (p : Path) (endings : List String) : Bool :=
  endings.any fun ending => ending.toList.isSuffixOf p.text.toList

end Path

end ModuleBundler
