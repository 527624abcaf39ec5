import ModuleBundler.Proofs.Bundle.Prelude
import ModuleBundler.Proofs.Relocation.Walk
import ModuleBundler.Proofs.Session.Basic

/-!
# Bundles of a project that is moved

A bundle does not depend on where its project lives (`generate_moved`). The dependencies are those of the
moved project, the modules keep their names below the root, and the root itself stands in a wrapped bundle
only as one literal of the script it begins with.

This holds for references that stay below the root and do not lead above the root of the file system on their
way. A reference that does may come back below the root in one place and pass another file in the other one
(`not_sameAnswer_crossing`).
-/

namespace ModuleBundler

/-! ### Answers -/

/-- Two bundles of one project in two places. -/
structure SameBundle (options : Options) (R₁ R₂ : Path) (b₁ b₂ : Bundle) : Prop where
  dependencies : List.Forall₂ (Moved R₁ R₂) b₁.dependencies.paths b₂.dependencies.paths
  hydration : b₁.hydration = b₂.hydration
  server : options.target = .server → b₁.code = b₂.code ∧ b₁.hash = b₂.hash
  wrapped : options.target ≠ .server → options.minify = false → ∃ after,
    b₁.code = preludeBefore options.extensions ++ quoted (rootName R₁) ++ after ∧
    b₂.code = preludeBefore options.extensions ++ quoted (rootName R₂) ++ after

/-- Two answers about one project in two places: bundles that differ in the place only, or faults of one
kind. -/
inductive SameAnswer (options : Options) (R₁ R₂ : Path) :
    Except BundleError Bundle → Except BundleError Bundle → Prop where
  | error {e₁ e₂ : BundleError} : e₁.rootCause.fault = e₂.rootCause.fault →
      SameAnswer options R₁ R₂ (.error e₁) (.error e₂)
  | ok {b₁ b₂ : Bundle} : SameBundle options R₁ R₂ b₁ b₂ → SameAnswer options R₁ R₂ (.ok b₁) (.ok b₂)

section

variable {options : Options} {R₁ R₂ : Path} {s₁ s₂ : FileStore}

/-! ### Modules -/

/-- A module keeps its name. -/
theorem moduleName_moved {p q : Path} (h : Moved R₁ R₂ p q) : moduleName p R₁ = moduleName q R₂ := by
  obtain ⟨parts, hp, hq⟩ := h.below
  unfold moduleName
  rw [hp, hq]

/-- **The sources of moved modules** are the same, or the first fault is of the same kind. -/
theorem readModules_moved (hs : SameFiles R₁ R₂ s₁ s₂) {ps qs : List Path}
    (h : List.Forall₂ (Moved R₁ R₂) ps qs) :
    (readModules s₁.view ps).1.mapError BundleError.fault =
      (readModules s₂.view qs).1.mapError BundleError.fault := by
  induction h with
  | nil => rfl
  | @cons p q ps qs hpq _ ih =>
    rw [readModules, readModules]
    rcases eq_of_mapError_eq (hs.source_moved hpq) with ⟨source, hp, hq⟩ | ⟨_, _, hp, hq, hf⟩
    · rw [hp, hq]
      rcases eq_of_mapError_eq ih with ⟨sources, hp, hq⟩ | ⟨_, _, hp, hq, hf⟩
      · simp [hp, hq, Except.map]
      · simp [hp, hq, hf, Except.map, Except.mapError]
    · rw [hp, hq]
      simp [hf, Except.mapError]

/-- The texts of moved modules are the same. -/
theorem moduleText_moved (options : Options) {ps qs : List Path} (h : List.Forall₂ (Moved R₁ R₂) ps qs) (sources : List String) :
    ((ps.zip sources).map fun m => moduleText (options.rootedAt R₁) R₁ m.1 m.2) =
      (qs.zip sources).map fun m => moduleText (options.rootedAt R₂) R₂ m.1 m.2 := by
  induction h generalizing sources with
  | nil => simp only [List.zip_nil_left, List.map_nil]
  | @cons p q ps qs hpq _ ih =>
    cases sources with
    | nil => simp only [List.zip_nil_right, List.map_nil]
    | cons source sources =>
      have hname := moduleName_moved hpq
      rw [List.zip_cons_cons, List.zip_cons_cons, List.map_cons, List.map_cons, ih]
      unfold moduleText
      rw [hname]
      rfl

/-! ### Assembly -/

theorem bundleParts_of_not_wraps {options : Options} (h : options.target.wrapsModules = false)
    (root entry : Path) (modules : List (Path × String)) :
    bundleParts options root entry modules = modules.map fun m => moduleText options root m.1 m.2 := by
  unfold bundleParts
  simp only [h, Bool.false_eq_true, if_false]

theorem bundleParts_of_wraps {options : Options} (h : options.target.wrapsModules = true)
    (root entry : Path) (modules : List (Path × String)) :
    bundleParts options root entry modules = prelude options.extensions (rootName root) ::
      (modules.map fun m => moduleText options root m.1 m.2) ++ [entryCall (moduleName entry root)] := by
  unfold bundleParts
  simp only [h, if_true]

/-- The text of a wrapped bundle: the script, with the root in its place, and everything else below it. -/
theorem code_wrapped (hext : ∀ ext ∈ options.extensions, Text.occursIn rootSlot ext.toList = false)
    (texts : List String) (call : String) : ∃ after, ∀ root : Path,
      "\n".intercalate (prelude options.extensions (rootName root) :: texts ++ [call]) =
        preludeBefore options.extensions ++ quoted (rootName root) ++ after := by
  obtain ⟨t, ts, ht⟩ : ∃ t ts, texts ++ [call] = t :: ts :=
    List.exists_cons_of_ne_nil (List.concat_ne_nil call texts)
  refine ⟨preludeAfter ++ "\n" ++ "\n".intercalate (t :: ts), fun root => ?_⟩
  rw [List.cons_append, ht, String.intercalate_cons_cons, prelude_eq hext]
  simp only [String.append_assoc]

/-- **Bundles of moved modules** with the same sources differ in the place only. -/
theorem sameBundle_bundleOf (hext : ∀ ext ∈ options.extensions, Text.occursIn rootSlot ext.toList = false)
    {p q : Path} (h : Moved R₁ R₂ p q) {d₁ d₂ : DependencySet}
    (hd : List.Forall₂ (Moved R₁ R₂) d₁.paths d₂.paths) (sources : List String) :
    SameBundle options R₁ R₂ (bundleOf (options.rootedAt R₁) R₁ p d₁ sources)
      (bundleOf (options.rootedAt R₂) R₂ q d₂ sources) := by
  have htexts := moduleText_moved options hd sources
  have hname := moduleName_moved h
  constructor
  case dependencies => exact hd
  case hydration =>
    simp only [bundleOf]
    rw [hname]
    rfl
  case server =>
    intro ht
    have hw₁ : (options.rootedAt R₁).target.wrapsModules = false := congrArg Target.wrapsModules ht
    have hw₂ : (options.rootedAt R₂).target.wrapsModules = false := congrArg Target.wrapsModules ht
    have hcode : (bundleOf (options.rootedAt R₁) R₁ p d₁ sources).code =
        (bundleOf (options.rootedAt R₂) R₂ q d₂ sources).code := by
      simp only [bundleOf]
      rw [bundleParts_of_not_wraps hw₁, bundleParts_of_not_wraps hw₂, htexts]
      rfl
    exact ⟨hcode, congrArg contentHash hcode⟩
  case wrapped =>
    intro ht hm
    have hw : options.target.wrapsModules = true := by
      cases hto : options.target with
      | server => exact absurd hto ht
      | browser => rfl
      | universal => rfl
    have hw₁ : (options.rootedAt R₁).target.wrapsModules = true := hw
    have hw₂ : (options.rootedAt R₂).target.wrapsModules = true := hw
    have hfinish : ∀ (root : Path) (text : String), finish (options.rootedAt root) text = text :=
      fun root text => if_neg (by simpa [Options.rootedAt] using hm)
    obtain ⟨after, hafter⟩ := code_wrapped hext
      ((d₂.paths.zip sources).map fun m => moduleText (options.rootedAt R₂) R₂ m.1 m.2)
      (entryCall (moduleName q R₂))
    refine ⟨after, ?_, ?_⟩
    · rw [← hafter R₁, ← htexts, ← hname]
      simp only [bundleOf]
      rw [hfinish, bundleParts_of_wraps hw₁]
      rfl
    · rw [← hafter R₂]
      simp only [bundleOf]
      rw [hfinish, bundleParts_of_wraps hw₂]
      rfl

/-- The root of the options is the root of the project. -/
theorem assemble_rootedAt {root : Path} (hr : root.IsPlace) (files : Files) (entry : Path)
    (dependencies : DependencySet) :
    (assemble files (options.rootedAt root) entry dependencies).1 =
      (readModules files dependencies.paths).1.map
        (bundleOf (options.rootedAt root) root entry dependencies) := by
  have hroot : projectRoot files (options.rootedAt root) = .ok root := by
    unfold projectRoot Options.rootedAt
    simp only [hr.absolute, if_true, hr.clean]
  unfold assemble
  rw [hroot]

/-! ### Requests -/

/-- What a build comes to, from what the walk found. -/
theorem buildFresh_eq (files : Files) (entry : Path) (options : Options) :
    (buildFresh files entry options).1 =
      match (explore files options entry).2, (explore files options entry).1.dependencies.entry? with
      | some e, _ => .error (.walk e)
      | none, none => .error (.noDependencies entry)
      | none, some first =>
        (assemble files options first (explore files options entry).1.dependencies).1 := by
  unfold buildFresh
  rcases explore files options entry with ⟨report, _ | e⟩
  · cases he : report.dependencies.entry? with
    | none => simp only [he]
    | some first => simp only [he]
  · rfl

variable (hs : SameProject options R₁ R₂ s₁ s₂) (hr₁ : s₁.EveryReference R₁ (StaysBelow R₁))
  (hr₂ : s₂.EveryReference R₂ (StaysBelow R₂))

include hs hr₁ hr₂

/-- A build of the moved project comes to the same. -/
theorem buildFresh_moved {entry : Path} (hrel : entry.isAbsolute = false) (hc : ¬ entry.Climbs) :
    (∃ e₁ e₂, (buildFresh s₁.view entry (options.rootedAt R₁)).1 = .error e₁ ∧
      (buildFresh s₂.view entry (options.rootedAt R₂)).1 = .error e₂ ∧ e₁.fault = e₂.fault) ∨
    ∃ b₁ b₂, (buildFresh s₁.view entry (options.rootedAt R₁)).1 = .ok b₁ ∧
      (buildFresh s₂.view entry (options.rootedAt R₂)).1 = .ok b₂ ∧ SameBundle options R₁ R₂ b₁ b₂ := by
  have hentry : ∀ {files : Files} {root : Path}, root.IsPlace →
      entryPath files (options.rootedAt root) entry = .ok (root.join entry).clean := by
    intro files root hr
    unfold entryPath projectRoot Options.rootedAt
    simp only [hrel, hr.absolute, hr.clean, if_true, Bool.false_eq_true, if_false]
  obtain ⟨hdeps, hfault⟩ := explore_moved hs hr₁ hr₂ (hentry hs.left) (hentry hs.right)
    (join_moved hs.left hs.right hrel hc)
  rw [buildFresh_eq, buildFresh_eq]
  generalize explore s₁.view (options.rootedAt R₁) entry = found₁ at hdeps hfault ⊢
  generalize explore s₂.view (options.rootedAt R₂) entry = found₂ at hdeps hfault ⊢
  obtain ⟨report₁, _ | e₁⟩ := found₁ <;> obtain ⟨report₂, _ | e₂⟩ := found₂
  · obtain ⟨⟨paths₁, distinct₁⟩, _, _, _⟩ := report₁
    obtain ⟨⟨paths₂, distinct₂⟩, _, _, _⟩ := report₂
    cases hdeps with
    | nil => exact .inl ⟨_, _, rfl, rfl, rfl⟩
    | @cons p q ps qs hpq hrest =>
      simp only [DependencySet.entry?, List.head?_cons]
      rw [assemble_rootedAt hs.left, assemble_rootedAt hs.right]
      have hmodules := readModules_moved hs.files (List.Forall₂.cons hpq hrest)
      rcases eq_of_mapError_eq hmodules with ⟨sources, hp, hq⟩ | ⟨e₁, e₂, hp, hq, hf⟩
      · rw [hp, hq]
        exact .inr ⟨_, _, rfl, rfl, sameBundle_bundleOf hs.extensions hpq (.cons hpq hrest) sources⟩
      · rw [hp, hq]
        exact .inl ⟨_, _, rfl, rfl, hf⟩
  · cases hfault
  · cases hfault
  · exact .inl ⟨_, _, rfl, rfl, Option.some.inj hfault⟩

end

/-- **Bundles do not depend on where the project lives.** Two stores hold one project below two roots, and
its references stay below the root without leading above the root of the file system. A request for an entry
that does not lead out of the project fails in both places for the same kind of reason, or it gives bundles
with the same dependencies, one by one, up to the root. The code and its digest are the same for a server;
else, and if nothing is taken out of it, the code differs in the literal for the root only. -/
theorem generate_moved {options : Options} {R₁ R₂ : Path} {s₁ s₂ : FileStore}
    (hs : SameProject options R₁ R₂ s₁ s₂) (hr₁ : s₁.EveryReference R₁ (StaysBelow R₁))
    (hr₂ : s₂.EveryReference R₂ (StaysBelow R₂)) {entry : Path} (hrel : entry.isAbsolute = false)
    (hc : ¬ entry.Climbs) (config₁ config₂ : CacheConfig) :
    SameAnswer options R₁ R₂
      (generateBundle s₁.view (.empty config₁) entry (options.rootedAt R₁)).result
      (generateBundle s₂.view (.empty config₂) entry (options.rootedAt R₂)).result := by
  rw [result_of_empty, result_of_empty]
  rcases buildFresh_moved hs hr₁ hr₂ hrel hc with ⟨e₁, e₂, h₁, h₂, hf⟩ | ⟨b₁, b₂, h₁, h₂, hb⟩
  · rw [h₁, h₂]
    refine .error ?_
    rw [BundleError.fault_rootCause, BundleError.fault_rootCause]
    exact hf
  · rw [h₁, h₂]
    exact .ok hb

/-- Two files that refer to one another, one of them by the name of the directory that both lie in. -/
def neighbours : List (String × String) :=
  [("a.js", "import '../app/b';"), ("b.js", "import './a.js';")]

theorem generate_moved_neighbours : ∃ b₁ b₂ after,
    (generateBundle (projectAt ⟨"/app"⟩ neighbours).view (.empty {}) ⟨"a.js"⟩
      (({} : Options).rootedAt ⟨"/app"⟩)).result = .ok b₁ ∧
    (generateBundle (projectAt ⟨"/srv/app"⟩ neighbours).view (.empty {}) ⟨"a.js"⟩
      (({} : Options).rootedAt ⟨"/srv/app"⟩)).result = .ok b₂ ∧
    b₁.dependencies.paths = [⟨"/app/a.js"⟩, ⟨"/app/b.js"⟩] ∧ b₁.hydration = b₂.hydration ∧
    b₁.code = preludeBefore ({} : Options).extensions ++ "\"/app\"" ++ after ∧
    b₂.code = preludeBefore ({} : Options).extensions ++ "\"/srv/app\"" ++ after := by
  have hs : SameProject {} ⟨"/app"⟩ ⟨"/srv/app"⟩ (projectAt ⟨"/app"⟩ neighbours)
      (projectAt ⟨"/srv/app"⟩ neighbours) :=
    sameProject_projectAt (by decide) (by decide) (by decide) (by decide) (by decide) (by decide)
  have hr₁ : (projectAt ⟨"/app"⟩ neighbours).EveryReference ⟨"/app"⟩ (StaysBelow ⟨"/app"⟩) :=
    FileStore.everyReference_of_files (by decide +kernel) _
  have hr₂ : (projectAt ⟨"/srv/app"⟩ neighbours).EveryReference ⟨"/srv/app"⟩ (StaysBelow ⟨"/srv/app"⟩) :=
    FileStore.everyReference_of_files (by decide +kernel) _
  have hpaths : (generateBundle (projectAt ⟨"/app"⟩ neighbours).view (.empty {}) ⟨"a.js"⟩
      (({} : Options).rootedAt ⟨"/app"⟩)).result.map (·.dependencies.paths) =
        .ok [⟨"/app/a.js"⟩, ⟨"/app/b.js"⟩] := by
    rw [result_of_empty]
    decide +kernel
  have hroots : quoted (rootName ⟨"/app"⟩) = "\"/app\"" ∧ quoted (rootName ⟨"/srv/app"⟩) = "\"/srv/app\"" := by
    decide +kernel
  have hrel : (⟨"a.js"⟩ : Path).isAbsolute = false := by decide
  have hsame := generate_moved hs hr₁ hr₂ hrel (by decide) {} {}
  generalize (generateBundle (projectAt ⟨"/app"⟩ neighbours).view _ _ _).result = answer₁ at hpaths hsame ⊢
  generalize (generateBundle (projectAt ⟨"/srv/app"⟩ neighbours).view _ _ _).result = answer₂ at hsame ⊢
  cases hsame with
  | error _ => cases hpaths
  | @ok b₁ b₂ hb =>
    obtain ⟨after, h₁, h₂⟩ := hb.wrapped (by decide) rfl
    exact ⟨b₁, b₂, after, rfl, rfl, Except.ok.inj hpaths, hb.hydration, by rw [h₁, hroots.1],
      by rw [h₂, hroots.2]⟩

/-! ### References above the root of the file system -/

/-- The same answers tell of equally many modules. -/
theorem SameAnswer.size_eq {options : Options} {R₁ R₂ : Path} {x y : Except BundleError Bundle}
    (h : SameAnswer options R₁ R₂ x y) :
    x.toOption.map (·.dependencies.size) = y.toOption.map (·.dependencies.size) := by
  cases h with
  | error _ => rfl
  | ok hb => exact congrArg some hb.dependencies.length_eq

/-- Two files, one of which refers to the other by a way that leads to the root of the file system from
`/app/app`, and above it from `/app`. -/
def crossing : List (String × String) :=
  [("f.js", "import '../../app/app/x';"), ("x.js", "1")]

/-- A reference that leads above the root of the file system may lead strictly below the root of the project
in both places and still depend on the place: from `/app` it leads to no file, and from `/app/app` it leads to
the file beside it. -/
theorem not_sameAnswer_crossing :
    SameProject { target := .server } ⟨"/app"⟩ ⟨"/app/app"⟩ (projectAt ⟨"/app"⟩ crossing)
      (projectAt ⟨"/app/app"⟩ crossing) ∧
    (projectAt ⟨"/app"⟩ crossing).EveryReference ⟨"/app"⟩ (LeadsBelow ⟨"/app"⟩) ∧
    (projectAt ⟨"/app/app"⟩ crossing).EveryReference ⟨"/app/app"⟩ (LeadsBelow ⟨"/app/app"⟩) ∧
    (⟨"f.js"⟩ : Path).isAbsolute = false ∧ ¬ (⟨"f.js"⟩ : Path).Climbs ∧
    ¬ SameAnswer { target := .server } ⟨"/app"⟩ ⟨"/app/app"⟩
      (generateBundle (projectAt ⟨"/app"⟩ crossing).view (.empty {}) ⟨"f.js"⟩
        (Options.rootedAt { target := .server } ⟨"/app"⟩)).result
      (generateBundle (projectAt ⟨"/app/app"⟩ crossing).view (.empty {}) ⟨"f.js"⟩
        (Options.rootedAt { target := .server } ⟨"/app/app"⟩)).result := by
  refine ⟨?_, ?_, ?_, by decide, by decide, fun h => ?_⟩
  · exact sameProject_projectAt (by decide) (by decide) (by decide) (by decide) (by decide) (by decide)
  · exact FileStore.everyReference_of_files (by decide +kernel) _
  · exact FileStore.everyReference_of_files (by decide +kernel) _
  · have hsize := h.size_eq
    rw [result_of_empty, result_of_empty] at hsize
    revert hsize
    decide +kernel

end ModuleBundler
