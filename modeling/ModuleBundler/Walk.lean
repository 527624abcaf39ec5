import ModuleBundler.DependencySet
import ModuleBundler.Project
import ModuleBundler.Reference.Scan
import ModuleBundler.Resolve

/-!
# Walking the dependency graph

From the entry every path reference is followed, depth first and in the order in which references are
listed. A file is put into the set before it is read, so that a file which is met again is not read
again. Files that match an ignore pattern, and files too many references away, are passed over.

Only the entry has to be readable. A file below it that cannot be read stays in the set and is listed
as failed; a reference that leads to no file is listed as unresolved.
-/

namespace ModuleBundler

/-! ### Reports and faults -/

/-- A path reference that leads to no file, and the file it stands in. -/
structure Unresolved where
  specifier : String
  importer : Path
  deriving DecidableEq, Repr

/-- What a walk has learned. -/
structure Report where
  dependencies : DependencySet := .empty
  unresolved : List Unresolved := []
  /-- The files below the entry that have no source. -/
  failed : List Path := []
  /-- The files that were read, in order, each as often as it was read. -/
  reads : List Path := []
  deriving Inhabited

/-- Why a walk was given up. -/
inductive WalkError where
  | unreadable (path : Path) (cause : FileError)
  | notText (path : Path)
  /-- The working directory that a relative entry needs is not known. -/
  | noWorkingDirectory (cause : FileError)
  deriving DecidableEq, Repr

namespace WalkError

/-- The text of a fault. -/
def message : WalkError → String
  | .unreadable p cause => "failed to read '" ++ p.text ++ "': " ++ cause.message
  | .notText p => "'" ++ p.text ++ "' is not valid UTF-8"
  | .noWorkingDirectory cause => "failed to determine working directory: " ++ cause.message

/-- The file that has no source. -/
def path? : WalkError → Option Path
  | .unreadable p _ => some p
  | .notText p => some p
  | .noWorkingDirectory _ => none

/-- The fault of a file without a source. -/
def ofSource (p : Path) : SourceError → WalkError
  | .unreadable cause => .unreadable p cause
  | .notText => .notText p

end WalkError

section

variable (files : Files) (options : Options)

/-! ### Visits -/

/-- A visit to a file: what is known after it, and the fault of the file if it has no source. -/
abbrev Visit := Path → Report → Report × Option WalkError

/-- Follows one reference of the file `importer`, with `descend` for the file that it leads to. -/
def followReference (descend : Visit) (importer : Path) (report : Report) (r : Reference) : Report :=
  if r.isBare then report
  else match resolve files options importer r.specifier with
    | none => { report with unresolved := report.unresolved ++ [⟨r.specifier, importer⟩] }
    | some child =>
      match descend child report with
      | (report, none) => report
      | (report, some _) => { report with failed := report.failed ++ [child] }

/-- Visits a file, with `descend` for the files that its references lead to. -/
def visitWith (descend : Visit) : Visit := fun p report =>
  if options.ignores p || report.dependencies.contains p then (report, none)
  else
    let report := { report with
      dependencies := report.dependencies.insert p
      reads := report.reads ++ [p] }
    match files.source p with
    | .error e => (report, some (.ofSource p e))
    | .ok source => ((references source).foldl (followReference files options descend p) report, none)

/-- Visits a file, and the files at most `further` references away from it. -/
def visit : Nat → Visit
  | 0 => visitWith files options fun _ report => (report, none)
  | further + 1 => visitWith files options (visit further)

/-! ### Walks -/

/-- The clean absolute path of an entry. -/
def entryPath (entry : Path) : Except WalkError Path :=
  if entry.isAbsolute then .ok entry.clean
  else match projectRoot files options with
    | .ok root => .ok (root.join entry).clean
    | .error cause => .error (.noWorkingDirectory cause)

/-- Visits everything from the entry on. What was read is reported also when the walk is given up. -/
def explore (entry : Path) : Report × Option WalkError :=
  match entryPath files options entry with
  | .error e => ({}, some e)
  | .ok p => visit files options options.maxDepth.toNat p {}

/-- All files that the entry leads to, or why there is no telling. -/
def walk (entry : Path) : Except WalkError Report :=
  match explore files options entry with
  | (report, none) => .ok report
  | (_, some e) => .error e

end

end ModuleBundler
