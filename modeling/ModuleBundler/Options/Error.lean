import ModuleBundler.Path

/-!
# Faults in options

Why options were refused, and the texts that say so.
-/

namespace ModuleBundler

/-- Why options were refused. -/
inductive OptionsError where
  /-- The file to load is not there. -/
  | fileMissing (path : Path)
  /-- No extension is left to try. -/
  | noExtensions
  /-- An extension that does not begin with a dot, is a dot only, or holds a path separator. -/
  | badExtension (extension : String)
  /-- An ignore pattern that occurs in every path. -/
  | emptyPattern
  /-- A target nobody knows; its text in lower case. -/
  | unknownTarget (text : String)
  /-- The layers could not be read as options. -/
  | unreadable
  deriving DecidableEq, Repr

namespace OptionsError

/-- The option at fault, when the fault lies in the value of one. -/
def field? : OptionsError → Option String
  | .noExtensions | .badExtension _ => some "extensions"
  | .emptyPattern => some "ignore_patterns"
  | .unknownTarget _ => some "target"
  | .fileMissing _ | .unreadable => none

/-- What is wrong with the value of an option. -/
def complaint : OptionsError → String
  | .fileMissing _ => "config file not found"
  | .noExtensions => "at least one extension is required"
  | .badExtension ext => "'" ++ ext ++ "' must start with '.' and contain no path separators"
  | .emptyPattern => "patterns must not be empty"
  | .unknownTarget s => "unknown target '" ++ s ++ "', expected server, browser or universal"
  | .unreadable => "failed to extract configuration"

/-- The text of a fault. -/
def message (e : OptionsError) : String :=
  match e, e.field? with
  | .fileMissing p, _ => "config file not found: " ++ p.text
  | e, some field => "invalid config value for `" ++ field ++ "`: " ++ e.complaint
  | e, none => e.complaint

end OptionsError

end ModuleBundler
