import ModuleBundler.Json.Record

/-!
# References to modules

A source names another module by a specifier, in one of five forms. A specifier that begins with a dot
or a slash is a path; any other one is bare, and names a package or something the host provides.
-/

namespace ModuleBundler

/-- The forms in which a source can refer to a module. -/
inductive ReferenceKind where
  /-- `require('./x')` -/
  | require
  /-- `import a from './x'` -/
  | importFrom
  /-- `import './x'` -/
  | sideEffectImport
  /-- `import('./x')` -/
  | dynamicImport
  /-- `export * from './x'` -/
  | reExport
  deriving DecidableEq, Repr

/-- All forms, in the order in which their references are listed. -/
def ReferenceKind.all : List ReferenceKind :=
  [.require, .importFrom, .sideEffectImport, .dynamicImport, .reExport]

/-- The name of a form. -/
def ReferenceKind.name : ReferenceKind → String
  | .require => "Require"
  | .importFrom => "ImportFrom"
  | .sideEffectImport => "SideEffectImport"
  | .dynamicImport => "DynamicImport"
  | .reExport => "ReExport"

/-- The form of that name. -/
def ReferenceKind.ofName? (s : String) : Option ReferenceKind := all.find? fun kind => kind.name == s

/-- Whether a specifier is a path. -/
def isPathSpecifier (specifier : String) : Bool :=
  match specifier.toList with
  | c :: _ => c == '.' || c == '/'
  | [] => false

/-- A specifier, and the form it was found in. -/
structure Reference where
  specifier : String
  kind : ReferenceKind
  deriving DecidableEq, Repr

namespace Reference

/-- Whether the reference is to a path. -/
def isPath (r : Reference) : Bool := isPathSpecifier r.specifier

/-- Whether the reference is to something outside the project. -/
def isBare (r : Reference) : Bool := !r.isPath

/-- A reference as an object. -/
def toJson (r : Reference) : Json :=
  Json.ofMembers [("specifier", Json.ofText r.specifier), ("kind", Json.ofText r.kind.name)]

/-- The form that a JSON value names: its name, or an object with its name as the only member, which
is null. -/
def kindOfJson? : Json → Option ReferenceKind
  | .string (some s) => ReferenceKind.ofName? s
  | .object [(some s, .null)] => ReferenceKind.ofName? s
  | _ => none

/-- A reference from an object or from an array of its two fields. -/
def ofJson? (v : Json) : Option Reference := do
  let fields ← v.fields? ["specifier", "kind"] 2
  return {
    specifier := ← Json.field? fields "specifier" Json.asText?
    kind := ← Json.field? fields "kind" kindOfJson? }

end Reference

end ModuleBundler
