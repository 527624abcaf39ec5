import ModuleBundler.Walk

/-!
# Faults of a build

Why there is no bundle, and the texts that say so.
-/

namespace ModuleBundler

/-- Why there is no bundle. -/
inductive BundleError where
  /-- The walk found nothing, not even the entry. -/
  | noDependencies (entry : Path)
  /-- The walk was given up. -/
  | walk (cause : WalkError)
  /-- A module of the bundle cannot be read. -/
  | moduleUnreadable (path : Path) (cause : FileError)
  /-- A module of the bundle is no text. -/
  | moduleNotText (path : Path)
  /-- The project root, which modules are named after, is not known. -/
  | noRoot (cause : FileError)
  /-- The bundle of `entry` failed. -/
  | generate (entry : Path) (cause : BundleError)
  deriving DecidableEq, Repr

namespace BundleError

/-- The text of a fault. -/
def message : BundleError → String
  | .noDependencies entry => "no dependencies found for '" ++ entry.text ++ "'"
  | .walk cause => cause.message
  | .moduleUnreadable p cause => "failed to read module '" ++ p.text ++ "': " ++ cause.message
  | .moduleNotText p => "module '" ++ p.text ++ "' is not valid UTF-8"
  | .noRoot cause => "failed to determine project root: " ++ cause.message
  | .generate entry cause =>
    "failed to generate bundle for '" ++ entry.text ++ "': " ++ cause.message

/-- The innermost fault. -/
def rootCause : BundleError → BundleError
  | .generate _ cause => cause.rootCause
  | e => e

/-- The fault of a module without a source. -/
def ofSource (p : Path) : SourceError → BundleError
  | .unreadable cause => .moduleUnreadable p cause
  | .notText => .moduleNotText p

end BundleError

end ModuleBundler
