import ModuleBundler.Text.Blank

/-!
# Log levels

How much is told about a build, from nothing to every detail.
-/

namespace ModuleBundler

/-- How much is told about a build. -/
inductive LogLevel where
  | silent
  | error
  | warn
  | info
  | debug
  | trace
  deriving DecidableEq, Repr, Inhabited

/-- A text that names no log level, as it was given. -/
structure UnknownLogLevel where
  text : String
  deriving DecidableEq, Repr

/-- The text of the fault. -/
def UnknownLogLevel.message (e : UnknownLogLevel) : String :=
  "unknown log level '" ++ e.text ++ "' (expected silent, error, warn, info, debug or trace)"

namespace LogLevel

/-- All levels, the quietest first. -/
def all : List LogLevel := [silent, error, warn, info, debug, trace]

/-- The name of a level in a filter directive. -/
def directive : LogLevel → String
  | .silent => "off"
  | .error => "error"
  | .warn => "warn"
  | .info => "info"
  | .debug => "debug"
  | .trace => "trace"

/-- The place of a level among all levels. -/
def rank : LogLevel → Nat
  | .silent => 0
  | .error => 1
  | .warn => 2
  | .info => 3
  | .debug => 4
  | .trace => 5

/-- Levels are ordered by how much they tell. -/
instance : Ord LogLevel := ⟨fun a b => compare a.rank b.rank⟩

/-- The level that a text names: a directive, or `silent` or `warning`, in any ASCII case and with
blanks around it. -/
def parse (s : String) : Except UnknownLogLevel LogLevel :=
  let wanted := String.ofList ((Text.trim s.toList).map Char.toLower)
  if wanted = "silent" then .ok .silent
  else if wanted = "warning" then .ok .warn
  else match all.find? fun level => level.directive == wanted with
    | some level => .ok level
    | none => .error ⟨s⟩

theorem parse_directive (level : LogLevel) : parse level.directive = .ok level := by
  cases level <;> rfl

end LogLevel

end ModuleBundler
