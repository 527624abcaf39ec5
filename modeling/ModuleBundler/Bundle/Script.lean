import ModuleBundler.Json.Print
import ModuleBundler.Options.Json
import ModuleBundler.Text.Search

/-!
# The scripts around modules

A wrapped bundle begins with a script that keeps a table of modules and finds the module that a
reference means in the same way as it was found for the bundle. Each module is then put into the table
under its name, and the entry is called for at the end.
-/

namespace ModuleBundler

/-- The lines of the script that a wrapped bundle begins with. There is a place for the extensions and a place
for the project root. -/
def preludeLines : List String :=
  [ "var __modules__ = \x7b\x7d;",
    "var __module_cache__ = \x7b\x7d;",
    "var __extensions__ = __EXTENSIONS__;",
    "var __root__ = __ROOT__;",
    "function __register__(id, factory) \x7b",
    "  __modules__[id] = factory;",
    "\x7d",
    "function __resolve__(from, ref) \x7b",
    "  var first = ref.charAt(0);",
    "  if (first !== \".\" && first !== \"/\") return ref;",
    "  var parts;",
    "  if (first === \".\") \x7b",
    "    parts = from.split(\"/\");",
    "    parts.pop();",
    "  \x7d else if (ref.indexOf(__root__ + \"/\") === 0) \x7b",
    "    parts = [];",
    "    ref = ref.slice(__root__.length + 1);",
    "  \x7d else \x7b",
    "    parts = [\"\"];",
    "  \x7d",
    "  ref.split(\"/\").forEach(function (part) \x7b",
    "    if (part === \"..\") parts.pop();",
    "    else if (part !== \".\" && part !== \"\") parts.push(part);",
    "  \x7d);",
    "  var base = parts.join(\"/\");",
    "  if (__modules__[base]) return base;",
    "  for (var i = 0; i < __extensions__.length; i++) \x7b",
    "    if (__modules__[base + __extensions__[i]]) return base + __extensions__[i];",
    "  \x7d",
    "  for (var j = 0; j < __extensions__.length; j++) \x7b",
    "    var index = (base ? base + \"/\" : \"\") + \"index\" + __extensions__[j];",
    "    if (__modules__[index]) return index;",
    "  \x7d",
    "  return base;",
    "\x7d",
    "function require(id) \x7b",
    "  var cached = __module_cache__[id];",
    "  if (cached) return cached.exports;",
    "  var factory = __modules__[id];",
    "  if (!factory) throw new Error(\"Module not found: \" + id);",
    "  var module = (__module_cache__[id] = \x7b exports: \x7b\x7d \x7d);",
    "  factory(module, module.exports, function (ref) \x7b",
    "    return require(__resolve__(id, ref));",
    "  \x7d);",
    "  return module.exports;",
    "\x7d" ]

/-- The script that a wrapped bundle begins with, with its places. -/
def preludeTemplate : String := "\n".intercalate preludeLines

/-- The script that starts the entry when the document is there. It has a place for the entry. -/
def hydrationTemplate : String :=
  "\n".intercalate [
    "(function () \x7b",
    "  var boot = function () \x7b",
    "    var entry = require(__ENTRY__);",
    "    if (entry && typeof entry.hydrate === \"function\") \x7b",
    "      entry.hydrate(document.getElementById(\"root\"));",
    "    \x7d",
    "  \x7d;",
    "  if (document.readyState === \"loading\") \x7b",
    "    document.addEventListener(\"DOMContentLoaded\", boot);",
    "  \x7d else \x7b",
    "    boot();",
    "  \x7d",
    "\x7d)();"]

/-- A text with `value` in the places called `place`. -/
def fillIn (place value text : String) : String :=
  String.ofList (Text.replaceAll place.toList value.toList text.toList)

/-- A text as a string literal of the script. -/
def quoted (s : String) : String := (Json.ofText s).print

/-- The script that a wrapped bundle begins with. The extensions are put in before the root. -/
def prelude (extensions : List String) (rootName : String) : String :=
  fillIn "__ROOT__" (quoted rootName)
    (fillIn "__EXTENSIONS__" (textsToJson extensions).print preludeTemplate)

/-- The registration of the module called `name`. -/
def registration (name source : String) : String :=
  "__register__(" ++ quoted name ++ ", function (module, exports, require) \x7b\n" ++ source ++ "\n\x7d);"

/-- The call for the module called `name`. -/
def entryCall (name : String) : String := "require(" ++ quoted name ++ ");"

/-- The script that starts the module called `name` when the document is there. -/
def hydrationScript (name : String) : String := fillIn "__ENTRY__" (quoted name) hydrationTemplate

end ModuleBundler
