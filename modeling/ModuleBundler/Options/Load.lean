import ModuleBundler.Files.Disk
import ModuleBundler.Json.Parse
import ModuleBundler.Options.Validation
import ModuleBundler.Setting.Written

/-!
# Loading options

Options are put together from three layers: the environment over a settings file over the defaults. Each
option has the value of the highest layer that sets it, and a value below it is never looked at. What
comes out is checked.
-/

namespace ModuleBundler

/-! ### Settings as values of options -/

namespace Setting

/-- A text, or a character as a text. -/
def asText? : Setting → Option String
  | .text s => some s
  | .char c => some (String.singleton c)
  | _ => none

/-- A list of texts. -/
def asTexts? : Setting → Option (List String)
  | .list xs => xs.mapM asText?
  | _ => none

/-- A truth value. -/
def asBool? : Setting → Option Bool
  | .bool b => some b
  | _ => none

/-- A whole number that fits into 64 bits. -/
def asUInt64? : Setting → Option UInt64
  | .whole n => if 0 ≤ n ∧ n < UInt64.size then some (UInt64.ofNat n.toNat) else none
  | _ => none

/-- The entry of a table whose key comes first in the order of texts. -/
def firstEntry? : List (String × Setting) → Option (String × Setting)
  | [] => none
  | e :: rest =>
    match firstEntry? rest with
    | none => some e
    | some other => if other.1 < e.1 then some other else some e

/-- A target: its name, or a table whose first entry is its name and null. -/
def asTarget? : Setting → Option Target
  | .text s => Target.ofName? s
  | .table entries =>
    match firstEntry? entries with
    | some (name, .null) => Target.ofName? name
    | _ => none
  | _ => none

/-- A path, or nothing. -/
def asRoot? : Setting → Option (Option Path)
  | .null => some none
  | x => x.asText?.map fun s => some ⟨s⟩

end Setting

/-- The setting called `name`, or `default` where it is absent. -/
def settingOr? {α : Type} (settings : Table String Setting) (name : String) (default : α)
    (read : Setting → Option α) : Option α :=
  match settings.get? name with
  | none => some default
  | some x => read x

namespace Options

/-- The options that a table sets, the others at their defaults. -/
def ofSettings? (settings : Table String Setting) : Option Options := do
  let defaults : Options := {}
  return {
    extensions := ← settingOr? settings "extensions" defaults.extensions Setting.asTexts?
    maxDepth := ← settingOr? settings "max_depth" defaults.maxDepth Setting.asUInt64?
    ignorePatterns := ← settingOr? settings "ignore_patterns" defaults.ignorePatterns Setting.asTexts?
    minify := ← settingOr? settings "minify" defaults.minify Setting.asBool?
    comments := ← settingOr? settings "comments" defaults.comments Setting.asBool?
    target := ← settingOr? settings "target" defaults.target Setting.asTarget?
    hydrate := ← settingOr? settings "hydrate" defaults.hydrate Setting.asBool?
    root := ← settingOr? settings "root" none Setting.asRoot? }

/-! ### The environment -/

/-- What the name of an environment variable begins with when it sets an option. -/
def variableStart : String := "SATCHEL_"

/-- The keys of the option that an environment variable sets: its name after the beginning, in any ASCII
case. A dot in the name leads into a table. -/
def optionKeys? (name : String) : Option (List String) := do
  let lower := (Text.trim name.toList).map Char.toLower
  let rest ← Text.dropWord? (variableStart.toList.map Char.toLower) lower
  let keys := Text.splitOn '.' (Text.trim rest)
  if keys.any List.isEmpty then none else some (keys.map String.ofList)

/-- A setting under nested keys. -/
def nestedEntry (x : Setting) : List String → List (String × Setting)
  | [] => []
  | [key] => [(key, x)]
  | key :: keys => [(key, .table (nestedEntry x keys))]

/-- The settings of an environment. Where two variables set one option, the later one counts. -/
def environmentSettings (environment : List (String × String)) : Table String Setting :=
  environment.foldl (fun table (name, value) =>
    match optionKeys? name with
    | none => table
    | some keys => Setting.layEntries table (nestedEntry (Setting.ofText value) keys)) []

/-! ### The settings file -/

/-- The directories from `names` up to the root. -/
def upwards (names : List String) : List (List String) :=
  (List.range (names.length + 1)).map fun n => names.take (names.length - n)

/-- The file that a path leads to, be it only from a directory above the working directory. -/
def findUpwards (disk : Disk) (p : Path) : Option ByteArray :=
  if p.isAbsolute then (disk.read p).toOption
  else (upwards disk.workingDirectory).findSome? fun names =>
    ({ disk with workingDirectory := names }.read p).toOption

/-- The settings of a file. A path that leads to a directory sets nothing. -/
def fileSettings (disk : Disk) (file : Option Path) : Except OptionsError (Table String Setting) :=
  match file with
  | none => .ok []
  | some p =>
    if !disk.exists? p then .error (.fileMissing p)
    else match findUpwards disk p with
      | none => .ok []
      | some content =>
        match ((String.fromUTF8? content).bind Json.parse?).bind (Setting.ofJson? nestingLimit) with
        | some (.table settings) => .ok settings
        | _ => .error .unreadable

/-! ### The layers together -/

/-- The options of the layers. -/
def load (disk : Disk) (file : Option Path) (environment : List (String × String)) :
    Except OptionsError Options := do
  let settings := Setting.layEntries (← fileSettings disk file) (environmentSettings environment)
  match ofSettings? settings with
  | none => .error .unreadable
  | some options =>
    options.validate
    return options

end Options

end ModuleBundler
