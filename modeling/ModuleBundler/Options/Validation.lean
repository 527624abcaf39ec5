import ModuleBundler.Options.Basic
import ModuleBundler.Options.Error
import ModuleBundler.Text.Lowercase

/-!
# Checking options

Checks that need no file system. The extensions are checked before the ignore patterns, and the first
fault is the one that is told.
-/

namespace ModuleBundler

/-- Whether `ext` is a dot and something after it, without path separators. -/
def isExtension (ext : String) : Bool :=
  match ext.toList with
  | '.' :: rest => !rest.isEmpty && !rest.contains '/' && !rest.contains '\\'
  | _ => false

namespace Options

/-- The first fault of the options. -/
def fault? (options : Options) : Option OptionsError :=
  if options.extensions.isEmpty then some .noExtensions
  else match options.extensions.find? fun ext => !isExtension ext with
    | some ext => some (.badExtension ext)
    | none => if options.ignorePatterns.any String.isEmpty then some .emptyPattern else none

/-- Whether the options have no fault. -/
def validate (options : Options) : Except OptionsError Unit :=
  match options.fault? with
  | some e => .error e
  | none => .ok ()

end Options

/-- The target that somebody asks for. -/
def Target.parse (s : String) : Except OptionsError Target :=
  match Target.ofText? s with
  | some t => .ok t
  | none => .error (.unknownTarget (Text.lowercase s))

end ModuleBundler
