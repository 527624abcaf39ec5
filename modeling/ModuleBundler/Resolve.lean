import ModuleBundler.Files.Basic
import ModuleBundler.Options.Basic
import ModuleBundler.Reference.Basic

/-!
# Resolving references

A path reference leads to a candidate path, seen from the directory of the file it stands in. A
candidate that ends in one of the extensions is the only path that is tried. Else every extension is
tried on it, and then on the index file of the directory it may name. The first path with a file is
the answer, and no answer is no error.
-/

namespace ModuleBundler

/-- The path that `specifier` names in the file `importer`. -/
def candidatePath (importer : Path) (specifier : String) : Path :=
  ((importer.parent?.getD ⟨""⟩).join ⟨specifier⟩).clean

/-- The paths that are tried for a candidate, in order. -/
def probes (extensions : List String) (candidate : Path) : List Path :=
  if candidate.endsInOneOf extensions then [candidate]
  else extensions.map candidate.append ++
    extensions.map fun ext => candidate.join ⟨"index" ++ ext⟩

/-- The file that `specifier` leads to from the file `importer`. -/
def resolve (files : Files) (options : Options) (importer : Path) (specifier : String) : Option Path :=
  if isPathSpecifier specifier then
    (probes options.extensions (candidatePath importer specifier)).find? files.isFile
  else none

end ModuleBundler
