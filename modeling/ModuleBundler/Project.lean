import ModuleBundler.Files.Basic
import ModuleBundler.Options.Basic

/-!
# Project roots and module names

A relative entry is taken from the project root, and a module is named after its path below the root,
with slashes. A module that lies elsewhere keeps its whole path for a name.
-/

namespace ModuleBundler

/-- The project root: the one that the options give, as seen from the working directory, or the working
directory itself. An absolute root needs no working directory. -/
def projectRoot (files : Files) (options : Options) : Except FileError Path :=
  match options.root with
  | some root =>
    if root.isAbsolute then .ok root.clean
    else files.workingDirectory.map fun directory => (directory.join root).clean
  | none => files.workingDirectory.map Path.clean

/-- A path text with slashes in place of backslashes. -/
def withSlashes (s : String) : String :=
  String.ofList (s.toList.map fun c => if c = '\\' then '/' else c)

/-- The name of the module at `p` in a project at `root`. -/
def moduleName (p root : Path) : String :=
  match p.below? root with
  | some parts => "/".intercalate (parts.map Part.text)
  | none => withSlashes p.text

/-- The project root as absolute references are compared with it: with slashes, and without a slash at
its end. -/
def rootName (root : Path) : String :=
  String.ofList ((withSlashes root.text).toList.reverse.dropWhile (· == '/')).reverse

end ModuleBundler
