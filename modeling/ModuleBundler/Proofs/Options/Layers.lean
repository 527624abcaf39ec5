import ModuleBundler.Options.Load
import ModuleBundler.Proofs.Disk.Lookup
import ModuleBundler.Proofs.Options.RoundTrip
import ModuleBundler.Proofs.Table

/-!
# Layers of options

Options are loaded from three layers: the variables of the environment, over a settings file, over the defaults. Each
layer is a table of settings, and every option has the value of the highest layer that sets it (`setBy`), as a whole:
a value below it is never looked at, so it may be of a wrong kind, or one that would be refused.

Loading goes another way. The tables are laid over one another key by key, where a table is merged with what is below
it, and options that are missing in the end get their defaults while they are read. That this is the same
(`load_layered`) comes down to two facts: what is no table takes the place of what is below it (`get?_layEntries`), and
the defaults are what their own settings say (`takesFrom_settings`).
-/

namespace ModuleBundler

/-! ### Layers -/

/-- The value under `key` in the highest layer that has one. The highest layer is the first one. -/
def setBy (layers : List (Table String Setting)) (key : String) : Option Setting :=
  layers.findSome? fun layer => layer.get? key

/-- The option that an environment variable sets, if its name has no dot, and what it sets the option to. -/
def assignment? (entry : String × String) : Option (String × Setting) :=
  match Options.optionKeys? entry.1 with
  | some [key] => some (key, Setting.ofText entry.2)
  | _ => none

/-- What the variables of an environment set. Of two variables that set one option the later one stands first. -/
def assignments (environment : List (String × String)) : Table String Setting :=
  environment.reverse.filterMap assignment?

/-- Whether the variables that set options have no dots in their names, and none of them sets an option to a table. -/
structure PlainEnvironment (environment : List (String × String)) : Prop where
  undotted : ∀ entry ∈ environment, (Options.optionKeys? entry.1).isSome = true → '.' ∉ entry.1.toList
  untabled : ∀ key ∈ optionNames, ∀ entries, (assignments environment).get? key ≠ some (.table entries)

/-- Whether a path leads to a file that holds the JSON object with these members. -/
def Disk.HoldsObject (disk : Disk) (p : Path) (members : List (Option String × Json)) : Prop :=
  ∃ content text, disk.read p = .ok content ∧ String.fromUTF8? content = some text ∧
    Json.parse? text = some (.object members)

namespace Options

/-- The options as a table of settings. A root stands in it only where there is one. -/
def settings (options : Options) : Table String Setting :=
  [ ("extensions", .list (options.extensions.map .text)),
    ("max_depth", .whole options.maxDepth.toNat),
    ("ignore_patterns", .list (options.ignorePatterns.map .text)),
    ("minify", .bool options.minify),
    ("comments", .bool options.comments),
    ("target", .text options.target.name),
    ("hydrate", .bool options.hydrate) ] ++
  options.root.toList.map fun root => ("root", .text root.text)

/-- `TakesFrom value options`: every option is what its value says. Only a root may be left out, and there is none
then. -/
@[mk_iff]
structure TakesFrom (value : String → Option Setting) (options : Options) : Prop where
  extensions : (value "extensions").bind Setting.asTexts? = some options.extensions
  maxDepth : (value "max_depth").bind Setting.asUInt64? = some options.maxDepth
  ignorePatterns : (value "ignore_patterns").bind Setting.asTexts? = some options.ignorePatterns
  minify : (value "minify").bind Setting.asBool? = some options.minify
  comments : (value "comments").bind Setting.asBool? = some options.comments
  target : (value "target").bind Setting.asTarget? = some options.target
  hydrate : (value "hydrate").bind Setting.asBool? = some options.hydrate
  root : (value "root").elim (some none) Setting.asRoot? = some options.root

instance (value : String → Option Setting) (options : Options) : Decidable (options.TakesFrom value) :=
  decidable_of_iff' _ (takesFrom_iff value options)

end Options

/-! ### Laying tables over one another -/

namespace Setting

variable {lower : Table String Setting} {upper : List (String × Setting)}

/-- What is no table takes the place of what is below it. -/
theorem layOver_of_not_table (below : Setting) {x : Setting} (hx : ∀ entries, x ≠ .table entries) :
    layOver below x = x := by
  rw [layOver]
  exact hx

/-- Above a table without repeated keys, a key has the value of the upper table, unless a table would have to be
merged. -/
theorem get?_layEntries (hd : Table.Distinct upper) (key : String)
    (hx : ∀ entries, Table.get? upper key ≠ some (.table entries)) :
    (layEntries lower upper).get? key = (Table.get? upper key).or (lower.get? key) := by
  induction upper generalizing lower with
  | nil => rfl
  | cons entry upper ih =>
    obtain ⟨k, x⟩ := entry
    rw [layEntries]
    rw [Table.get?_cons] at hx ⊢
    by_cases hk : k = key
    · subst hk
      have habsent : Table.get? upper k = none := by
        rw [← Option.not_isSome_iff_eq_none, ← Table.has, Table.has_eq_true_iff]
        exact (List.nodup_cons.mp hd).1
      rw [ih hd.tail (by simp [habsent]), habsent, Table.get?_put, if_pos rfl, if_pos rfl]
      rw [if_pos rfl] at hx
      cases hlower : lower.get? k with
      | none => rfl
      | some below => exact congrArg some (layOver_of_not_table below fun entries he => hx entries (by rw [he]))
    · rw [if_neg hk] at hx ⊢
      rw [ih hd.tail hx, Table.get?_put, if_neg hk]

end Setting

/-! ### Variables -/

theorem Text.mem_of_mem_trim {c : Char} {cs : List Char} (h : c ∈ Text.trim cs) : c ∈ cs := by
  have h : c ∈ (trimStart cs).reverse := (List.dropWhile_sublist _).subset (List.mem_reverse.mp h)
  exact (List.dropWhile_sublist _).subset (List.mem_reverse.mp h)

/-- Letters become letters in lower case. -/
theorem Text.eq_dot_of_toLower {c : Char} (h : c.toLower = '.') : c = '.' := by
  unfold Char.toLower at h
  split at h
  next hc =>
    have hval : c.val = '.'.val - ('a'.val - 'A'.val) := by
      rw [← congrArg Char.val h, UInt32.add_sub_cancel]
    rw [hval] at hc
    exact absurd hc (by decide)
  next => exact h

namespace Options

/-- The name of a variable without a dot leads to one key. -/
theorem optionKeys?_of_undotted {name : String} {keys : List String} (hn : '.' ∉ name.toList)
    (h : optionKeys? name = some keys) : ∃ key, keys = [key] := by
  unfold optionKeys? at h
  obtain ⟨rest, hrest, h⟩ := Option.bind_eq_some_iff.mp h
  have hdot : '.' ∉ rest := by
    intro hmem
    have hlower := List.mem_append_right (variableStart.toList.map Char.toLower) hmem
    rw [← Text.dropWord?_eq_some_iff.mp hrest] at hlower
    obtain ⟨c, hc, he⟩ := List.mem_map.mp hlower
    obtain rfl := Text.eq_dot_of_toLower he
    exact hn (Text.mem_of_mem_trim hc)
  rw [Text.splitOn_of_not_mem fun hmem => hdot (Text.mem_of_mem_trim hmem)] at h
  simp only [Option.ite_none_left_eq_some, Option.some.injEq] at h
  exact ⟨_, h.2.symm⟩

section

variable {environment : List (String × String)} {entry : String × String}

theorem environmentSettings_concat_of_none (h : optionKeys? entry.1 = none) :
    environmentSettings (environment ++ [entry]) = environmentSettings environment := by
  rw [environmentSettings, List.foldl_concat, ← environmentSettings]
  simp only [h]

theorem environmentSettings_concat_of_key {key : String} (h : optionKeys? entry.1 = some [key]) :
    environmentSettings (environment ++ [entry]) =
      Setting.layEntries (environmentSettings environment) [(key, Setting.ofText entry.2)] := by
  rw [environmentSettings, List.foldl_concat, ← environmentSettings]
  simp only [h, nestedEntry]

end

end Options

theorem assignments_concat (environment : List (String × String)) (entry : String × String) :
    assignments (environment ++ [entry]) = (assignment? entry).toList ++ assignments environment := by
  unfold assignments
  rw [List.reverse_append, List.reverse_singleton, List.singleton_append, List.filterMap_cons]
  cases assignment? entry <;> rfl

/-- The settings of an environment are what its variables set, unless they set something to a table. -/
theorem get?_environmentSettings {environment : List (String × String)}
    (hu : ∀ entry ∈ environment, (Options.optionKeys? entry.1).isSome = true → '.' ∉ entry.1.toList) :
    Table.Distinct (Options.environmentSettings environment) ∧
      ∀ key, (∀ entries, (assignments environment).get? key ≠ some (.table entries)) →
        (Options.environmentSettings environment).get? key = (assignments environment).get? key := by
  induction environment using List.reverseRecOn with
  | nil => exact ⟨List.nodup_nil, fun _ _ => rfl⟩
  | append_singleton environment entry ih =>
    obtain ⟨hd, hget⟩ := ih fun e he => hu e (List.mem_append_left _ he)
    rw [assignments_concat, assignment?]
    cases hkeys : Options.optionKeys? entry.1 with
    | none =>
      rw [Options.environmentSettings_concat_of_none hkeys]
      exact ⟨hd, hget⟩
    | some keys =>
      have hdot := hu entry (List.mem_append_right _ List.mem_cons_self) (by rw [hkeys]; rfl)
      obtain ⟨key, rfl⟩ := Options.optionKeys?_of_undotted hdot hkeys
      rw [Options.environmentSettings_concat_of_key hkeys]
      refine ⟨hd.put _ _, fun k hk => ?_⟩
      rw [Option.toList_some, Table.get?_append] at hk ⊢
      have hx : ∀ entries, Table.get? [(key, Setting.ofText entry.2)] k ≠ some (.table entries) :=
        fun entries he => hk entries (by rw [he]; rfl)
      have hsingle : Table.Distinct [(key, Setting.ofText entry.2)] := List.pairwise_singleton _ _
      rw [Setting.get?_layEntries hsingle k hx]
      cases hlast : Table.get? [(key, Setting.ofText entry.2)] k with
      | some x => rfl
      | none =>
        rw [hlast, Option.none_or] at hk
        rw [Option.none_or, Option.none_or, hget k hk]

/-! ### Options as settings -/

namespace Setting

theorem asTexts?_texts (texts : List String) : (Setting.list (texts.map .text)).asTexts? = some texts := by
  rw [asTexts?]
  induction texts with
  | nil => rfl
  | cons s texts ih => simp [ih, asText?]

theorem asUInt64?_whole (n : UInt64) : (Setting.whole n.toNat).asUInt64? = some n := by
  rw [asUInt64?, if_pos (toNat_bounds n), Int.toNat_natCast, UInt64.ofNat_toNat]

end Setting

namespace Options

/-- **Options are what their settings say.** -/
theorem takesFrom_settings (options : Options) : options.TakesFrom options.settings.get? := by
  constructor
  case maxDepth =>
    have h : options.settings.get? "max_depth" = some (.whole options.maxDepth.toNat) := by
      simp [settings, Table.get?_cons]
    rw [h, Option.bind_some, Setting.asUInt64?_whole]
  case root =>
    cases h : options.root <;> simp [settings, Table.get?_cons, h, Setting.asRoot?, Setting.asText?]
  all_goals
    simp [settings, Table.get?_cons, Setting.asTexts?_texts, Setting.asBool?, Setting.asTarget?,
      Target.ofName?_name]

section

variable {table : Table String Setting} {value : String → Option Setting}

/-- A default that is filled in while an option is read is a value of the lowest layer. -/
theorem settingOr?_eq_bind {α : Type} {name : String} {default : α} {read : Setting → Option α}
    (hv : value name = (table.get? name).or (({} : Options).settings.get? name))
    (h : (({} : Options).settings.get? name).bind read = some default) :
    settingOr? table name default read = (value name).bind read := by
  rw [settingOr?, hv]
  cases table.get? name with
  | none => exact h.symm
  | some x => rfl

/-- **The options of a table** take their values from the table over the defaults. -/
theorem ofSettings?_eq_some_iff
    (hv : ∀ key ∈ optionNames, value key = (table.get? key).or (({} : Options).settings.get? key)) (options : Options) :
    ofSettings? table = some options ↔ options.TakesFrom value := by
  have hd := takesFrom_settings {}
  simp only [optionNames, List.forall_mem_cons] at hv
  obtain ⟨hextensions, hdepth, hpatterns, hminify, hcomments, htarget, hhydrate, hroot, -⟩ := hv
  have hlast : settingOr? table "root" none Setting.asRoot? = (value "root").elim (some none) Setting.asRoot? := by
    rw [settingOr?, hroot]
    cases table.get? "root" <;> rfl
  unfold ofSettings?
  dsimp only
  rw [settingOr?_eq_bind hextensions hd.extensions, settingOr?_eq_bind hdepth hd.maxDepth,
    settingOr?_eq_bind hpatterns hd.ignorePatterns, settingOr?_eq_bind hminify hd.minify,
    settingOr?_eq_bind hcomments hd.comments, settingOr?_eq_bind htarget hd.target,
    settingOr?_eq_bind hhydrate hd.hydrate, hlast]
  constructor
  · intro h
    obtain ⟨_, hextensions, h⟩ := Option.bind_eq_some_iff.mp h
    obtain ⟨_, hdepth, h⟩ := Option.bind_eq_some_iff.mp h
    obtain ⟨_, hpatterns, h⟩ := Option.bind_eq_some_iff.mp h
    obtain ⟨_, hminify, h⟩ := Option.bind_eq_some_iff.mp h
    obtain ⟨_, hcomments, h⟩ := Option.bind_eq_some_iff.mp h
    obtain ⟨_, htarget, h⟩ := Option.bind_eq_some_iff.mp h
    obtain ⟨_, hhydrate, h⟩ := Option.bind_eq_some_iff.mp h
    obtain ⟨_, hroot, h⟩ := Option.bind_eq_some_iff.mp h
    obtain rfl := Option.some.inj h
    exact ⟨hextensions, hdepth, hpatterns, hminify, hcomments, htarget, hhydrate, hroot⟩
  · intro h
    rw [h.extensions, h.maxDepth, h.ignorePatterns, h.minify, h.comments, h.target, h.hydrate, h.root]
    rfl

end

/-! ### Loading -/

variable {disk : Disk} {p : Path} {members : List (Option String × Json)} {environment : List (String × String)}

/-- A file that a path leads to is found without going up. -/
theorem findUpwards_of_read {content : ByteArray} (h : disk.read p = .ok content) :
    findUpwards disk p = some content := by
  have hhere : (disk.read p).toOption = some content := by rw [h]; rfl
  unfold findUpwards
  split
  · exact hhere
  · rw [upwards, List.range_succ_eq_map, List.map_cons, Nat.sub_zero, List.take_length, List.findSome?_cons, hhere]

/-- The settings of a file that holds an object are its members. -/
theorem fileSettings_of_holdsObject (h : disk.HoldsObject p members) :
    fileSettings disk (some p) =
      match Setting.ofMembers? (nestingLimit - 1) [] members with
      | some file => .ok file
      | none => .error .unreadable := by
  obtain ⟨content, text, hr, ht, hj⟩ := h
  have hthere : disk.exists? p = true := by
    rw [Disk.exists?, Disk.read_eq_ok_iff.mp hr]
    rfl
  have hsetting : Setting.ofJson? nestingLimit (.object members) =
      (Setting.ofMembers? (nestingLimit - 1) [] members).map .table := by
    rw [Setting.ofJson?, if_neg (by decide)]
  unfold fileSettings
  simp only [hthere, findUpwards_of_read hr, ht, hj, Option.bind_some, hsetting, Bool.not_true, Bool.false_eq_true,
    if_false]
  cases Setting.ofMembers? (nestingLimit - 1) [] members <;> rfl

theorem load_of_unreadable (h : disk.HoldsObject p members)
    (hm : Setting.ofMembers? (nestingLimit - 1) [] members = none) :
    load disk (some p) environment = .error .unreadable := by
  rw [load, fileSettings_of_holdsObject h, hm]
  rfl

/-- The options of a file and an environment, if there are any, are checked. -/
theorem load_of_settings {file : Table String Setting} (h : disk.HoldsObject p members)
    (hm : Setting.ofMembers? (nestingLimit - 1) [] members = some file) :
    load disk (some p) environment =
      match ofSettings? (Setting.layEntries file (environmentSettings environment)) with
      | none => .error .unreadable
      | some options => options.validate.map fun _ => options := by
  rw [load, fileSettings_of_holdsObject h, hm]
  simp only [bind, Except.bind]
  cases ofSettings? (Setting.layEntries file (environmentSettings environment)) with
  | none => rfl
  | some options => cases options.validate <;> rfl

/-- The three layers that options are loaded from. -/
def layers (environment : List (String × String)) (file : Table String Setting) : List (Table String Setting) :=
  [assignments environment, file, ({} : Options).settings]

section

variable {file : Table String Setting}

/-- Options that a file and an environment give have the values of the highest layers. -/
theorem ofSettings?_layEntries (he : PlainEnvironment environment) {value : String → Option Setting}
    (hv : ∀ key ∈ optionNames, value key = setBy (layers environment file) key) (options : Options) :
    ofSettings? (Setting.layEntries file (environmentSettings environment)) = some options ↔
      options.TakesFrom value := by
  obtain ⟨hd, hget⟩ := get?_environmentSettings he.undotted
  refine ofSettings?_eq_some_iff (fun key hkey => ?_) options
  have hplain := he.untabled key hkey
  rw [Setting.get?_layEntries hd key (by rwa [hget key hplain]), hget key hplain, hv key hkey]
  simp only [setBy, layers, List.findSome?_cons, List.findSome?_nil]
  cases (assignments environment).get? key with
  | some x => rfl
  | none => cases file.get? key with
    | some x => rfl
    | none => cases ({} : Options).settings.get? key <;> rfl

/-- What comes out of loading are options without a fault. -/
theorem load_eq_ok_iff (h : disk.HoldsObject p members)
    (hm : Setting.ofMembers? (nestingLimit - 1) [] members = some file) (he : PlainEnvironment environment)
    (options : Options) :
    load disk (some p) environment = .ok options ↔
      options.TakesFrom (setBy (layers environment file)) ∧ options.validate = .ok () := by
  rw [load_of_settings h hm, ← ofSettings?_layEntries he fun _ _ => rfl]
  cases ofSettings? (Setting.layEntries file (environmentSettings environment)) with
  | none => simp
  | some found =>
    simp only [Option.some.injEq]
    cases hv : found.validate with
    | ok _ => exact ⟨fun h => Except.ok.inj h ▸ ⟨rfl, hv⟩, fun h => congrArg _ h.1⟩
    | error e =>
      simp only [Except.map, reduceCtorEq, false_iff, not_and]
      rintro rfl
      simp [hv]

/-- Loading fails because some option has a value of a wrong kind, or because the options have a fault. -/
theorem load_eq_error_iff (h : disk.HoldsObject p members)
    (hm : Setting.ofMembers? (nestingLimit - 1) [] members = some file) (he : PlainEnvironment environment)
    (e : OptionsError) :
    load disk (some p) environment = .error e ↔
      (e = .unreadable ∧ ∀ options : Options, ¬ options.TakesFrom (setBy (layers environment file))) ∨
        ∃ options : Options, options.TakesFrom (setBy (layers environment file)) ∧ options.validate = .error e := by
  rw [load_of_settings h hm]
  simp only [← ofSettings?_layEntries he fun _ _ => rfl]
  cases ofSettings? (Setting.layEntries file (environmentSettings environment)) with
  | none => simp [eq_comm]
  | some found => cases hv : found.validate <;> simp [hv, Except.map]

/-- Where the environment sets an option, the file does not count. -/
theorem load_congr {other : Disk} {q : Path} {members' : List (Option String × Json)} {file' : Table String Setting}
    (h : disk.HoldsObject p members) (hm : Setting.ofMembers? (nestingLimit - 1) [] members = some file)
    (h' : other.HoldsObject q members') (hm' : Setting.ofMembers? (nestingLimit - 1) [] members' = some file')
    (he : PlainEnvironment environment)
    (hs : ∀ key ∈ optionNames, (assignments environment).get? key = none → file'.get? key = file.get? key) :
    load other (some q) environment = load disk (some p) environment := by
  have hvalue : ∀ key ∈ optionNames, setBy (layers environment file) key = setBy (layers environment file') key := by
    intro key hkey
    simp only [setBy, layers, List.findSome?_cons]
    cases hvar : (assignments environment).get? key with
    | some x => rfl
    | none => rw [hs key hkey hvar]
  have hoptions : ofSettings? (Setting.layEntries file' (environmentSettings environment)) =
      ofSettings? (Setting.layEntries file (environmentSettings environment)) := by
    ext options
    exact (ofSettings?_layEntries he hvalue options).trans (ofSettings?_layEntries he (fun _ _ => rfl) options).symm
  rw [load_of_settings h hm, load_of_settings h' hm', hoptions]

end

/-- **Options are loaded in layers**, from a file that holds an object and an environment whose variables have no dots
in their names and set no option to a table. A file with a value that no setting can hold is refused as a whole. Apart
from this, loading gives the options whose values are those of the highest layers that set them, if these values are of
the right kinds and the options have no fault, and otherwise it tells that a value is of a wrong kind, or the first
fault. So two files that differ only in what they say of options that the environment sets, and in what is no option
at all, are loaded alike. -/
theorem load_layered (h : disk.HoldsObject p members) (he : PlainEnvironment environment) :
    (Setting.ofMembers? (nestingLimit - 1) [] members = none →
      load disk (some p) environment = .error .unreadable) ∧
      ∀ file, Setting.ofMembers? (nestingLimit - 1) [] members = some file →
        let value := setBy (layers environment file)
        (∀ options, load disk (some p) environment = .ok options ↔
          options.TakesFrom value ∧ options.validate = .ok ()) ∧
        (∀ e, load disk (some p) environment = .error e ↔
          (e = .unreadable ∧ ∀ options : Options, ¬ options.TakesFrom value) ∨
            ∃ options : Options, options.TakesFrom value ∧ options.validate = .error e) ∧
        ∀ (other : Disk) (q : Path) (members' : List (Option String × Json)) (file' : Table String Setting),
          other.HoldsObject q members' → Setting.ofMembers? (nestingLimit - 1) [] members' = some file' →
          (∀ key ∈ optionNames, (assignments environment).get? key = none → file'.get? key = file.get? key) →
          load other (some q) environment = load disk (some p) environment := by
  refine ⟨load_of_unreadable h, fun file hm => ⟨fun options => load_eq_ok_iff h hm he options,
    fun e => load_eq_error_iff h hm he e, ?_⟩⟩
  intro other q members' file' h' hm' hs
  exact load_congr h hm h' hm' he hs

/-- A disk with a settings file. -/
def settingsDisk (members : List (Option String × Json)) : Disk where
  workingDirectory := ["app"]
  files := [(["app", "satchel.json"], (Json.object members).print.toUTF8)]

theorem holdsObject_settingsDisk (members : List (Option String × Json)) :
    (settingsDisk members).HoldsObject ⟨"satchel.json"⟩ members := by
  refine ⟨_, (Json.object members).print, Disk.read_eq_ok_iff.mpr rfl, ?_, Json.parse?_print _⟩
  exact dif_pos (Json.object members).print.isValidUTF8

/-- Settings with a depth that is no number, a target that nobody knows, and something that is no option. -/
def spoiledMembers : List (Option String × Json) :=
  [(some "max_depth", .ofText "deep"), (some "minify", .bool true), (some "target", .ofText "moon"),
    (some "x", .null)]

/-- Variables that set the depth and the target. -/
def shadowingEnvironment : List (String × String) :=
  [("HOME", "/root"), ("SATCHEL_MAX_DEPTH", "7"), ("satchel_target", "server")]

theorem load_layered_shadowed :
    load (settingsDisk spoiledMembers) (some ⟨"satchel.json"⟩) shadowingEnvironment =
        .ok { minify := true, maxDepth := 7, target := .server } ∧
      load (settingsDisk [(some "minify", .bool true)]) (some ⟨"satchel.json"⟩) shadowingEnvironment =
        load (settingsDisk spoiledMembers) (some ⟨"satchel.json"⟩) shadowingEnvironment := by
  have hkinds : (assignments shadowingEnvironment).all fun e => e.2 matches .text _ | .whole _ := by decide
  have he : PlainEnvironment shadowingEnvironment := by
    refine ⟨by decide, fun key _ entries h => ?_⟩
    have hkind := List.all_eq_true.mp hkinds _ (Table.mem_of_get?_eq_some h)
    cases hkind
  obtain ⟨-, hload⟩ := load_layered (holdsObject_settingsDisk spoiledMembers) he
  obtain ⟨hok, -, hsame⟩ :=
    hload [("max_depth", .text "deep"), ("minify", .bool true), ("target", .text "moon"), ("x", .null)] rfl
  refine ⟨(hok _).mpr ⟨by decide, by decide⟩,
    hsame _ _ _ [("minify", .bool true)] (holdsObject_settingsDisk _) rfl ?_⟩
  -- what the files say differently is set by a variable, or it is no option
  have hset : ∀ k ∈ ["max_depth", "target"], (assignments shadowingEnvironment).has k = true := by decide
  intro key hkey hunset
  have hdiffers : ∀ k ∈ ["max_depth", "target"], k ≠ key := by
    rintro k hk rfl
    have hk := hset k hk
    rw [Table.has, hunset] at hk
    cases hk
  have hx : "x" ≠ key := by
    rintro rfl
    exact absurd hkey (by decide)
  simp [Table.get?_cons, hx, hdiffers]

end Options

end ModuleBundler
