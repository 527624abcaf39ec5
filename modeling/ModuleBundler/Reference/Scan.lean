import ModuleBundler.Reference.Form

/-!
# Finding the references of a source

No syntax tree is built: a reference is found wherever its text stands, in a comment or in a string
too. The references of one form are searched from the left, each after the end of the one before, and
each has to begin at a word boundary.
-/

namespace ModuleBundler

open Text

/-- The reference of form `kind` that a text begins with: its specifier, and how many characters it
takes. `before` is the character directly before the text. -/
def ReferenceKind.matchAt (kind : ReferenceKind) (before : Option Char) (cs : List Char) :
    Option (List Char × Nat) :=
  if opensWord before then
    (kind.read cs).map fun (specifier, after) => (specifier, cs.length - after.length)
  else none

/-- The specifiers of the references of form `kind` in a text, in order. -/
def ReferenceKind.specifiers (kind : ReferenceKind) (before : Option Char) : List Char → List (List Char)
  | [] => []
  | c :: cs =>
    match kind.matchAt before (c :: cs) with
    | some (specifier, size) =>
      specifier :: kind.specifiers (c :: cs)[size - 1]? (cs.drop (size - 1))
    | none => kind.specifiers (some c) cs
termination_by cs => cs.length

/-- The references of a source, form by form. Repeated ones are kept. -/
def references (source : String) : List Reference :=
  ReferenceKind.all.flatMap fun kind =>
    (kind.specifiers none source.toList).map fun s => ⟨String.ofList s, kind⟩

end ModuleBundler
