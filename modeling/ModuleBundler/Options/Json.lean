import ModuleBundler.Json.Print
import ModuleBundler.Json.Record
import ModuleBundler.Options.Basic

/-!
# Options as JSON

Options are written with all their fields in one order, so that equal options have equal texts; a root
is written only where there is one. A missing field has its default when options are read, and means
no override when overrides are read.
-/

namespace ModuleBundler

/-- The names of the options. -/
def optionNames : List String :=
  ["extensions", "max_depth", "ignore_patterns", "minify", "comments", "target", "hydrate", "root"]

/-- A list of texts as JSON. -/
def textsToJson (texts : List String) : Json := Json.ofList Json.ofText texts

/-- A path from JSON. -/
def Path.ofJson? (v : Json) : Option Path := v.asText?.map Path.mk

namespace Options

/-- Options as an object. -/
def toJson (options : Options) : Json :=
  Json.ofMembers <|
    [ ("extensions", textsToJson options.extensions),
      ("max_depth", Json.ofNat options.maxDepth.toNat),
      ("ignore_patterns", textsToJson options.ignorePatterns),
      ("minify", .bool options.minify),
      ("comments", .bool options.comments),
      ("target", options.target.toJson),
      ("hydrate", .bool options.hydrate) ] ++
    options.root.toList.map fun root => ("root", Json.ofText root.text)

/-- The text that stands for the options in a cache key. -/
def jsonText (options : Options) : String := options.toJson.print

/-- Options from an object or from an array, which may end early. -/
def ofJson? (v : Json) : Option Options := do
  let fields ← v.fields? optionNames 0
  let defaults : Options := {}
  let texts := Json.asList? Json.asText?
  return {
    extensions := ← Json.fieldOr? fields "extensions" defaults.extensions texts
    maxDepth := ← Json.fieldOr? fields "max_depth" defaults.maxDepth Json.asUInt64?
    ignorePatterns := ← Json.fieldOr? fields "ignore_patterns" defaults.ignorePatterns texts
    minify := ← Json.fieldOr? fields "minify" defaults.minify Json.asBool?
    comments := ← Json.fieldOr? fields "comments" defaults.comments Json.asBool?
    target := ← Json.fieldOr? fields "target" defaults.target Target.ofJson?
    hydrate := ← Json.fieldOr? fields "hydrate" defaults.hydrate Json.asBool?
    root := ← Json.fieldOr? fields "root" none (Json.asNullable? Path.ofJson?) }

end Options

namespace Overrides

/-- Overrides as an object with the fields that are given. -/
def toJson (o : Overrides) : Json :=
  let given (name : String) (value : Option Json) : List (String × Json) :=
    value.toList.map fun v => (name, v)
  Json.ofMembers <|
    given "extensions" (o.extensions.map textsToJson) ++
    given "max_depth" (o.maxDepth.map fun n => Json.ofNat n.toNat) ++
    given "ignore_patterns" (o.ignorePatterns.map textsToJson) ++
    given "minify" (o.minify.map .bool) ++
    given "comments" (o.comments.map .bool) ++
    given "target" (o.target.map Target.toJson) ++
    given "hydrate" (o.hydrate.map .bool) ++
    given "root" (o.root.map fun p => Json.ofText p.text)

/-- Overrides from an object or from an array of all fields; `null` gives no value. -/
def ofJson? (v : Json) : Option Overrides := do
  let fields ← v.fields? optionNames optionNames.length
  let texts := Json.asList? Json.asText?
  return {
    extensions := ← Json.fieldOr? fields "extensions" none (Json.asNullable? texts)
    maxDepth := ← Json.fieldOr? fields "max_depth" none (Json.asNullable? Json.asUInt64?)
    ignorePatterns := ← Json.fieldOr? fields "ignore_patterns" none (Json.asNullable? texts)
    minify := ← Json.fieldOr? fields "minify" none (Json.asNullable? Json.asBool?)
    comments := ← Json.fieldOr? fields "comments" none (Json.asNullable? Json.asBool?)
    target := ← Json.fieldOr? fields "target" none (Json.asNullable? Target.ofJson?)
    hydrate := ← Json.fieldOr? fields "hydrate" none (Json.asNullable? Json.asBool?)
    root := ← Json.fieldOr? fields "root" none (Json.asNullable? Path.ofJson?) }

end Overrides

end ModuleBundler
