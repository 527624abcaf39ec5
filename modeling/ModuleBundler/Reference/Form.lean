import ModuleBundler.Reference.Basic
import ModuleBundler.Text.Blank
import ModuleBundler.Text.Search
import ModuleBundler.Text.Word

/-!
# The five forms of a reference

Each form begins with a keyword and ends after the quoted specifier, or after the bracket that closes
it. From a given place a form can be read in one way at most, so reading it needs no search: where a
clause may hold any of several characters, the clause is the longest run of them, since what has to
follow it is none of them.

No quote is told apart from another: a specifier that is opened by one of them may be closed by
another.
-/

namespace ModuleBundler

open Text

/-- The quotes around a specifier in a call. -/
def callQuotes : List Char := ['\x27', '\x22', '\x60']

/-- The quotes around a specifier in a declaration. -/
def declarationQuotes : List Char := ['\x27', '\x22']

/-- A quoted specifier that a text begins with, and the rest of the text. A specifier is not empty,
and holds no line feed and none of the quotes. -/
def readQuoted (quotes cs : List Char) : Option (List Char × List Char) :=
  match cs with
  | [] => none
  | q :: rest =>
    let inside := fun c => !quotes.contains c && c != '\n'
    let specifier := rest.takeWhile inside
    match rest.dropWhile inside with
    | [] => none
    | q' :: after =>
      if quotes.contains q && !specifier.isEmpty && quotes.contains q' then some (specifier, after)
      else none

/-- The rest of a text that begins with a blank, after its blanks. -/
def afterBlanks? (cs : List Char) : Option (List Char) :=
  if cs.head?.any isBlank then some (trimStart cs) else none

/-- A call of `keyword` with a quoted specifier. -/
def readCall (keyword : List Char) (cs : List Char) : Option (List Char × List Char) := do
  match trimStart (← dropWord? keyword cs) with
  | '(' :: rest =>
    let (specifier, rest) ← readQuoted callQuotes (trimStart rest)
    match trimStart rest with
    | ')' :: rest => some (specifier, rest)
    | _ => none
  | _ => none

/-- The characters that may stand between `import` and the specifier. -/
def isClauseChar (c : Char) : Bool :=
  isWordChar c || isBlank c || ['$', '*', '\x7b', '\x7d', ','].contains c

/-- Whether a clause ends in the word `from`, apart from blanks, and has a blank and at least one
character more before it. -/
def endsInFrom (clause : List Char) : Bool :=
  clause.head?.any isBlank &&
  match dropWord? "morf".toList (clause.reverse.dropWhile isBlank) with
  | some before => opensWord before.head? && 2 ≤ before.length
  | none => false

/-- `import`, a clause, and a quoted specifier. -/
def readImportFrom (cs : List Char) : Option (List Char × List Char) := do
  let rest ← dropWord? "import".toList cs
  if endsInFrom (rest.takeWhile isClauseChar) then
    readQuoted declarationQuotes (rest.dropWhile isClauseChar)
  else none

/-- `import` and a quoted specifier. -/
def readSideEffectImport (cs : List Char) : Option (List Char × List Char) := do
  readQuoted declarationQuotes (trimStart (← dropWord? "import".toList cs))

/-- `from` and a quoted specifier, after any blanks. -/
def readFrom (cs : List Char) : Option (List Char × List Char) := do
  readQuoted declarationQuotes (trimStart (← dropWord? "from".toList (trimStart cs)))

/-- The characters of a name. -/
def isNameChar (c : Char) : Bool := isWordChar c || c == '$'

/-- `as`, a name, `from` and a quoted specifier. No blank is needed between the name and `from`, so
that a name that ends in `from` can be followed by the specifier. -/
def readAsFrom (cs : List Char) : Option (List Char × List Char) := do
  let rest ← afterBlanks? cs
  let rest ← dropWord? "as".toList rest
  let rest ← afterBlanks? rest
  let name := rest.takeWhile isNameChar
  let after := rest.dropWhile isNameChar
  if name.isEmpty then none
  else readFrom after <|> do
    let before ← dropWord? "morf".toList name.reverse
    if before.isEmpty then none else readQuoted declarationQuotes (trimStart after)

/-- `export`, perhaps `type`, a star with or without a name or a list in braces, `from` and a quoted
specifier. -/
def readReExport (cs : List Char) : Option (List Char × List Char) := do
  let rest ← dropWord? "export".toList cs
  let rest ← afterBlanks? rest
  let rest := ((dropWord? "type".toList rest).bind afterBlanks?).getD rest
  match rest with
  | '*' :: rest => readAsFrom rest <|> readFrom rest
  | '\x7b' :: rest =>
    match rest.dropWhile (· != '\x7d') with
    | _ :: rest => readFrom rest
    | [] => none
  | _ => none

/-- The reference of form `kind` that a text begins with: its specifier, and the rest of the text. -/
def ReferenceKind.read (kind : ReferenceKind) (cs : List Char) : Option (List Char × List Char) :=
  match kind with
  | .require => readCall "require".toList cs
  | .importFrom => readImportFrom cs
  | .sideEffectImport => readSideEffectImport cs
  | .dynamicImport => readCall "import".toList cs
  | .reExport => readReExport cs

end ModuleBundler
