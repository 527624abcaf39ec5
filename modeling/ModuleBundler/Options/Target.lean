import ModuleBundler.Json.Basic
import ModuleBundler.Text.Lowercase

/-!
# Delivery targets

Where a bundle is to run. A bundle for a server is the sources one after the other, for the module
loader of the host. In every other bundle each module is wrapped in a registration.
-/

namespace ModuleBundler

/-- Where a bundle is to run. -/
inductive Target where
  | server
  | browser
  | universal
  deriving DecidableEq, Repr, Inhabited

namespace Target

/-- The name of a target. -/
def name : Target → String
  | .server => "server"
  | .browser => "browser"
  | .universal => "universal"

/-- Whether modules are wrapped in registrations. -/
def wrapsModules : Target → Bool
  | .server => false
  | _ => true

/-- The target of that name, with its exact spelling. -/
def ofName? (s : String) : Option Target :=
  [server, browser, universal].find? fun t => t.name == s

/-- The target that somebody asks for, by its name or by an older name, in any case. -/
def ofText? (s : String) : Option Target :=
  match Text.lowercase s with
  | "server" | "node" => some .server
  | "browser" | "client" => some .browser
  | "universal" => some .universal
  | _ => none

theorem ofName?_name (t : Target) : ofName? t.name = some t := by cases t <;> decide

/-- A target as JSON: its name. -/
def toJson (t : Target) : Json := .ofText t.name

/-- A target from JSON: its name, or an object with its name as the only member, which is null. -/
def ofJson? : Json → Option Target
  | .string (some s) => ofName? s
  | .object [(some s, .null)] => ofName? s
  | _ => none

end Target

end ModuleBundler
