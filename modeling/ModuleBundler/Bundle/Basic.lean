import ModuleBundler.DependencySet
import ModuleBundler.Json.Parse
import ModuleBundler.Json.Print

/-!
# Bundles

What a successful build gives, and its text in a cache.
-/

namespace ModuleBundler

/-- What a successful build gives. -/
structure Bundle where
  /-- The text of the bundle. -/
  code : String
  /-- The modules in it, the entry first. -/
  dependencies : DependencySet
  /-- A digest of the code. -/
  hash : String
  /-- The script that starts the entry in a browser, where one was asked for. -/
  hydration : Option String
  deriving Inhabited

namespace Bundle

/-- A bundle as an object; without a hydration script it has no such field. -/
def toJson (bundle : Bundle) : Json :=
  Json.ofMembers <|
    [ ("code", Json.ofText bundle.code),
      ("dependencies", bundle.dependencies.toJson),
      ("hash", Json.ofText bundle.hash) ] ++
    bundle.hydration.toList.map fun script => ("hydrationCode", Json.ofText script)

/-- A bundle from an object or from an array of its fields, where the last one may be missing. -/
def ofJson? (v : Json) : Option Bundle := do
  let fields ← v.fields? ["code", "dependencies", "hash", "hydrationCode"] 3
  return {
    code := ← Json.field? fields "code" Json.asText?
    dependencies := ← Json.field? fields "dependencies" DependencySet.ofJson?
    hash := ← Json.field? fields "hash" Json.asText?
    hydration := ← Json.fieldOr? fields "hydrationCode" none (Json.asNullable? Json.asText?) }

/-- The text of a bundle. -/
def encode (bundle : Bundle) : String := bundle.toJson.print

/-- The bundle that a text spells. -/
def decode? (s : String) : Option Bundle := (Json.parse? s).bind ofJson?

end Bundle

end ModuleBundler
