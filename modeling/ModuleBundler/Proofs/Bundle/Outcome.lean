import ModuleBundler.Proofs.Session.Basic
import ModuleBundler.Proofs.Walk.Closure

/-!
# What a request comes to

Where nothing is in the cache, a request can fail for five reasons, and several of them may hold at once. The
one that is met first decides: the place of the entry, the entry itself, the project root, and then the
modules in the order of the set (`Outcome`). Exactly one case applies to every request, and it gives the
answer and the files that are read for it (`outcome_iff_buildFresh`).

A file below the entry that cannot be read does not end the walk. It does end the reading of the modules, by
which time every file of the set was read once already.
-/

namespace ModuleBundler

variable {files : Files} {options : Options} {entry : Path}

/-! ### Project roots -/

/-- The project root is unknown when it depends on a working directory that is unknown. -/
theorem projectRoot_eq_error_iff {cause : FileError} : projectRoot files options = .error cause ↔
    files.workingDirectory = .error cause ∧ ∀ root, options.root = some root → root.isAbsolute = false := by
  unfold projectRoot
  cases options.root with
  | none => cases files.workingDirectory <;> simp [Except.map]
  | some root => cases hr : root.isAbsolute <;> cases files.workingDirectory <;> simp [hr, Except.map]

/-- An entry has no place when it is relative and the project root is unknown. -/
theorem entryPath_eq_error_iff {e : WalkError} : entryPath files options entry = .error e ↔
    entry.isAbsolute = false ∧ ∃ cause, projectRoot files options = .error cause ∧
      e = .noWorkingDirectory cause := by
  unfold entryPath
  cases entry.isAbsolute with
  | true => simp
  | false => cases projectRoot files options <;> simp [eq_comm]

/-! ### Reading modules -/

/-- Modules that all have a source are read one after the other. -/
theorem readModules_of_sources {ps : List Path} {sources : List String}
    (h : List.Forall₂ (fun p source => files.source p = .ok source) ps sources) :
    readModules files ps = (.ok sources, ps) := by
  induction h with
  | nil => rfl
  | cons hp _ ih =>
    rw [readModules, hp]
    simp only [ih]
    rfl

/-- The first module without a source ends the reading. -/
theorem readModules_of_first {q : Path} {e : SourceError} (hq : files.source q = .error e)
    (after : List Path) {before : List Path} (hb : ∀ p ∈ before, ∃ source, files.source p = .ok source) :
    readModules files (before ++ q :: after) = (.error (.ofSource q e), before ++ [q]) := by
  induction before with
  | nil => rw [List.nil_append, readModules, hq]; rfl
  | cons p before ih =>
    obtain ⟨⟨source, hp⟩, hrest⟩ := List.forall_mem_cons.mp hb
    rw [List.cons_append, readModules, hp]
    simp only [ih hrest]
    rfl

/-- All modules have a source, or there is a first one that has none. -/
theorem sources_or_first (files : Files) (ps : List Path) :
    (∃ sources, List.Forall₂ (fun p source => files.source p = .ok source) ps sources) ∨
      ∃ before q after e, ps = before ++ q :: after ∧
        (∀ p ∈ before, ∃ source, files.source p = .ok source) ∧ files.source q = .error e := by
  induction ps with
  | nil => exact .inl ⟨[], .nil⟩
  | cons p ps ih =>
    cases hp : files.source p with
    | error e => exact .inr ⟨[], p, ps, e, rfl, by simp, hp⟩
    | ok source =>
      rcases ih with ⟨sources, h⟩ | ⟨before, q, after, e, rfl, hb, hq⟩
      · exact .inl ⟨source :: sources, .cons hp h⟩
      · exact .inr ⟨p :: before, q, after, e, rfl, List.forall_mem_cons.mpr ⟨⟨source, hp⟩, hb⟩, hq⟩

/-! ### Walks -/

/-- A walk from an entry that is not passed over, and what it has learned. -/
structure Walked (files : Files) (options : Options) (entry p : Path) (report : Report) : Prop where
  place : entryPath files options entry = .ok p
  kept : options.ignores p = false
  report_eq : walk files options entry = .ok report

namespace Walked

variable {p : Path} {report : Report}

theorem explore_eq (h : Walked files options entry p report) :
    explore files options entry = (report, none) := by
  have hw := h.report_eq
  unfold walk at hw
  split at hw
  · obtain rfl := Except.ok.inj hw
    assumption
  · cases hw

theorem reads_eq (h : Walked files options entry p report) : report.reads = report.dependencies.paths := by
  have ha := agrees_walk h.report_eq h.place
  rw [ha.reads, ha.paths]

theorem entry?_eq (h : Walked files options entry p report) : report.dependencies.entry? = some p := by
  have hex : Explored files options p options.maxDepth.toNat (meetings files options p) :=
    explored_meetings h.kept
  rw [DependencySet.entry?, (agrees_walk h.report_eq h.place).paths, List.head?_map, hex.first]
  rfl

/-- What is built is what is assembled after the walk. -/
theorem buildFresh_eq_assemble (h : Walked files options entry p report) :
    buildFresh files entry options =
      ((assemble files options p report.dependencies).1,
        report.dependencies.paths ++ (assemble files options p report.dependencies).2) := by
  unfold buildFresh
  simp only [h.explore_eq, h.entry?_eq, h.reads_eq]

end Walked

/-- A walk goes well if its entry has a source. -/
theorem exists_walked {p : Path} {source : String} (hp : entryPath files options entry = .ok p)
    (hi : options.ignores p = false) (hs : files.source p = .ok source) :
    ∃ report, Walked files options entry p report := by
  obtain ⟨descend, he⟩ := explore_eq_visitWith hp
  have hvisited : (visitWith files options descend p {}).2 = none := by
    unfold visitWith
    rw [hi, hs]
    rfl
  refine ⟨(explore files options entry).1, hp, hi, ?_⟩
  unfold walk
  rw [he]
  generalize visitWith files options descend p {} = visited at hvisited ⊢
  obtain ⟨report, fault⟩ := visited
  simp only at hvisited
  rw [hvisited]

/-! ### Cases -/

/-- What a request comes to if nothing is in the cache, and the files that are read for it. The cases stand in
the order in which they are met, and each of them excludes the ones before it. -/
inductive Outcome (files : Files) (options : Options) (entry : Path) :
    Except BundleError Bundle → List Path → Prop where
  /-- A relative entry has no place if the project root is unknown. -/
  | noPlace {cause : FileError} : entry.isAbsolute = false → projectRoot files options = .error cause →
      Outcome files options entry (.error (.walk (.noWorkingDirectory cause))) []
  /-- The entry is passed over. -/
  | ignored {p : Path} : entryPath files options entry = .ok p → options.ignores p = true →
      Outcome files options entry (.error (.noDependencies entry)) []
  /-- The entry has no source. -/
  | noEntry {p : Path} {e : SourceError} : entryPath files options entry = .ok p → options.ignores p = false →
      files.source p = .error e → Outcome files options entry (.error (.walk (.ofSource p e))) [p]
  /-- The walk goes well, but the project root is unknown. -/
  | noRoot {p : Path} {report : Report} {cause : FileError} : Walked files options entry p report →
      projectRoot files options = .error cause →
      Outcome files options entry (.error (.noRoot cause)) report.dependencies.paths
  /-- The module `q` is the first one of the set that has no source. -/
  | noModule {p q root : Path} {report : Report} {before after : List Path} {e : SourceError} :
      Walked files options entry p report → projectRoot files options = .ok root →
      report.dependencies.paths = before ++ q :: after →
      (∀ r ∈ before, ∃ source, files.source r = .ok source) → files.source q = .error e →
      Outcome files options entry (.error (.ofSource q e)) (report.dependencies.paths ++ (before ++ [q]))
  /-- All modules have a source. -/
  | built {p root : Path} {report : Report} {sources : List String} : Walked files options entry p report →
      projectRoot files options = .ok root →
      List.Forall₂ (fun r source => files.source r = .ok source) report.dependencies.paths sources →
      Outcome files options entry (.ok (bundleOf options root p report.dependencies sources))
        (report.dependencies.paths ++ report.dependencies.paths)

namespace Outcome

variable {result : Except BundleError Bundle} {reads : List Path}

/-- A case that applies gives the answer. -/
theorem buildFresh_eq (h : Outcome files options entry result reads) :
    buildFresh files entry options = (result, reads) := by
  cases h with
  | noPlace he hr =>
    have hp : entryPath files options entry = .error _ := entryPath_eq_error_iff.mpr ⟨he, _, hr, rfl⟩
    unfold buildFresh explore
    rw [hp]
  | ignored hp hi =>
    obtain ⟨descend, he⟩ := explore_eq_visitWith hp
    unfold buildFresh
    rw [he, visitWith, hi]
    rfl
  | noEntry hp hi hs =>
    obtain ⟨descend, he⟩ := explore_eq_visitWith hp
    unfold buildFresh
    rw [he, visitWith, hi, hs]
    rfl
  | noRoot hw hr =>
    rw [hw.buildFresh_eq_assemble, assemble, hr, List.append_nil]
  | noModule hw hr hd hb hq =>
    rw [hw.buildFresh_eq_assemble, assemble, hr]
    simp only [hd, readModules_of_first hq _ hb]
    rfl
  | built hw hr hs =>
    rw [hw.buildFresh_eq_assemble, assemble, hr]
    simp only [readModules_of_sources hs]
    rfl

/-- None of the reasons is itself the failure of a request. -/
theorem rootCause_eq {e : BundleError} (h : Outcome files options entry (.error e) reads) :
    e.rootCause = e := by
  cases h with
  | @noModule _ _ _ _ _ _ e => cases e <;> rfl
  | _ => rfl

end Outcome

/-- One of the cases applies. -/
theorem exists_outcome (files : Files) (options : Options) (entry : Path) :
    ∃ result reads, Outcome files options entry result reads := by
  cases hp : entryPath files options entry with
  | error e =>
    obtain ⟨he, cause, hr, -⟩ := entryPath_eq_error_iff.mp hp
    exact ⟨_, _, .noPlace he hr⟩
  | ok p =>
    cases hi : options.ignores p with
    | true => exact ⟨_, _, .ignored hp hi⟩
    | false =>
      cases hs : files.source p with
      | error e => exact ⟨_, _, .noEntry hp hi hs⟩
      | ok source =>
        obtain ⟨report, hw⟩ := exists_walked hp hi hs
        cases hr : projectRoot files options with
        | error cause => exact ⟨_, _, .noRoot hw hr⟩
        | ok root =>
          rcases sources_or_first files report.dependencies.paths with ⟨sources, h⟩ | ⟨_, _, _, _, hd, hb, hq⟩
          · exact ⟨_, _, .built hw hr h⟩
          · exact ⟨_, _, .noModule hw hr hd hb hq⟩

/-- **Exactly one case applies**, and it says what is built and what is read. -/
theorem outcome_iff_buildFresh {result : Except BundleError Bundle} {reads : List Path} :
    Outcome files options entry result reads ↔ buildFresh files entry options = (result, reads) := by
  refine ⟨Outcome.buildFresh_eq, fun h => ?_⟩
  obtain ⟨result', reads', ho⟩ := exists_outcome files options entry
  rw [ho.buildFresh_eq] at h
  obtain ⟨rfl, rfl⟩ := Prod.mk.inj h
  exact ho

/-! ### Requests -/

/-- Where nothing is fetched, the files that are read are those of the build. -/
theorem reads_of_fetch_none {cache : BundleCache} (h : (fetch cache (cacheKey entry options)).1 = none) :
    (generateBundle files cache entry options).reads = (buildFresh files entry options).2 := by
  unfold generateBundle
  simp only
  split
  next b cache' he =>
    rw [he] at h
    cases h
  next cache' he =>
    split
    next e reads hb => rw [hb]
    next bundle reads hb => rw [hb]

theorem FileStore.reads_countReads (store : FileStore) (ps : List Path) :
    (store.countReads ps).reads = store.reads + ps.length := by
  unfold countReads
  induction ps generalizing store with
  | nil => rfl
  | cons p ps ih =>
    rw [List.foldl_cons, ih (store.countRead p), List.length_cons]
    show store.reads + 1 + ps.length = _
    omega

/-- The answers of a store from a working directory that may be unknown. -/
def FileStore.viewFrom (store : FileStore) (directory : Except FileError Path) : Files :=
  { store.view with workingDirectory := directory }

/-- **What a request comes to**, for files in memory and a working directory that may be unknown. If nothing is
in the cache under the key of the request, exactly one case applies: it gives the bundle, or the root cause of
the failure, which tells of the entry as it was passed, and it gives the files that are read, each as often as
it is read. The project root is unknown just when the working directory is and the options give no absolute
root. -/
theorem outcome_generateBundle (store : FileStore) (directory : Except FileError Path) {cache : BundleCache}
    {entry : Path} {options : Options} (hn : (cache.get (cacheKey entry options)).1 = none) :
    let files := store.viewFrom directory
    let build := generateBundle files cache entry options
    (∃ result, Outcome files options entry result build.reads ∧
      build.result = result.mapError (.generate entry) ∧
      ∀ e, build.result = .error e → result = .error e.rootCause) ∧
    (∀ result reads, Outcome files options entry result reads →
      build.result = result.mapError (.generate entry) ∧ build.reads = reads) ∧
    (∀ cause, projectRoot files options = .error cause ↔
      directory = .error cause ∧ ∀ root, options.root = some root → root.isAbsolute = false) ∧
    (store.countReads build.reads).reads = store.reads + build.reads.length := by
  intro files build
  have hfetch : (fetch cache (cacheKey entry options)).1 = none := by
    rcases fetch_cases cache (cacheKey entry options) with ⟨_, _, hg, -⟩ | ⟨_, hg, -⟩ | ⟨-, he⟩
    · rw [hn] at hg; cases hg
    · rw [hn] at hg; cases hg
    · rw [he]
  have hresult : build.result = (buildFresh files entry options).1.mapError (.generate entry) :=
    result_of_fetch_none hfetch
  have hreads : build.reads = (buildFresh files entry options).2 := reads_of_fetch_none hfetch
  have hnow : Outcome files options entry (buildFresh files entry options).1 build.reads := by
    rw [hreads]
    exact outcome_iff_buildFresh.mpr rfl
  refine ⟨⟨_, hnow, hresult, fun e he => ?_⟩, fun result reads ho => ?_,
    fun cause => projectRoot_eq_error_iff, store.reads_countReads _⟩
  · generalize (buildFresh files entry options).1 = result at hnow hresult ⊢
    cases result with
    | ok bundle => rw [hresult] at he; cases he
    | error cause =>
      obtain rfl := Except.error.inj (hresult.symm.trans he)
      rw [BundleError.rootCause, hnow.rootCause_eq]
  · rw [ho.buildFresh_eq] at hresult hreads
    exact ⟨hresult, hreads⟩

/-- An entry with three modules, of which the second one cannot be read and the third one is no text. -/
def brokenImports : FileStore :=
  ((((FileStore.empty ⟨"/app"⟩).insert ⟨"index.js"⟩
    "import './a';\nimport './b';\nimport './c';".toUTF8).insert ⟨"a.js"⟩ "1".toUTF8).insertUnreadable
    ⟨"b.js"⟩).insert ⟨"c.js"⟩ ⟨#[255]⟩

/-- A build for `brokenImports` with an empty cache. -/
def brokenBuild (directory : Except FileError Path) (entry : Path) : Build :=
  generateBundle (brokenImports.viewFrom directory) (.empty {}) entry {}

theorem outcome_generateBundle_brokenImports :
    (brokenBuild (.ok ⟨"/app"⟩) ⟨"index.js"⟩).result = .error (.generate ⟨"index.js"⟩
      (.moduleUnreadable ⟨"/app/b.js"⟩ (.io "Failed to read /app/b.js: permission denied"))) ∧
    (brokenBuild (.ok ⟨"/app"⟩) ⟨"index.js"⟩).reads.length = 4 + 3 ∧
    (brokenBuild (.error (.other "gone")) ⟨"/app/index.js"⟩).result =
      .error (.generate ⟨"/app/index.js"⟩ (.noRoot (.other "gone"))) ∧
    (brokenBuild (.error (.other "gone")) ⟨"/app/index.js"⟩).reads.length = 4 := by
  have hwalked : ∀ directory entry,
      entryPath (brokenImports.viewFrom directory) {} entry = .ok ⟨"/app/index.js"⟩ →
      (walk (brokenImports.viewFrom directory) {} entry).map (·.dependencies.paths) =
        .ok [⟨"/app/index.js"⟩, ⟨"/app/a.js"⟩, ⟨"/app/b.js"⟩, ⟨"/app/c.js"⟩] →
      ∃ report, Walked (brokenImports.viewFrom directory) {} entry ⟨"/app/index.js"⟩ report ∧
        report.dependencies.paths = [⟨"/app/index.js"⟩, ⟨"/app/a.js"⟩, ⟨"/app/b.js"⟩, ⟨"/app/c.js"⟩] := by
    intro directory entry hp hpaths
    cases h : walk (brokenImports.viewFrom directory) {} entry with
    | error e => rw [h] at hpaths; cases hpaths
    | ok report =>
      rw [h] at hpaths
      exact ⟨report, ⟨hp, by decide +kernel, h⟩, Except.ok.inj hpaths⟩
  have hcold : ∀ key, ((.empty {} : BundleCache).get key).1 = none := fun _ => rfl
  obtain ⟨-, hknown, -⟩ := outcome_generateBundle brokenImports (.ok ⟨"/app"⟩)
    (hcold (cacheKey ⟨"index.js"⟩ {}))
  obtain ⟨-, hunknown, -⟩ := outcome_generateBundle brokenImports (.error (.other "gone"))
    (hcold (cacheKey ⟨"/app/index.js"⟩ {}))
  obtain ⟨report₁, hw₁, hd₁⟩ := hwalked (.ok ⟨"/app"⟩) ⟨"index.js"⟩ (by decide +kernel) (by decide +kernel)
  obtain ⟨report₂, hw₂, hd₂⟩ := hwalked (.error (.other "gone")) ⟨"/app/index.js"⟩ (by decide +kernel)
    (by decide +kernel)
  have hsources : ∀ p ∈ [(⟨"/app/index.js"⟩ : Path), ⟨"/app/a.js"⟩],
      ∃ source, (brokenImports.viewFrom (.ok ⟨"/app"⟩)).source p = .ok source := by
    refine List.forall_mem_cons.mpr ⟨⟨"import './a';\nimport './b';\nimport './c';", by decide +kernel⟩, ?_⟩
    exact List.forall_mem_singleton.mpr ⟨"1", by decide +kernel⟩
  have hroot : projectRoot (brokenImports.viewFrom (.ok ⟨"/app"⟩)) {} = .ok ⟨"/app"⟩ := by decide +kernel
  have hfirst : (brokenImports.viewFrom (.ok ⟨"/app"⟩)).source ⟨"/app/b.js"⟩ =
      .error (.unreadable (.io "Failed to read /app/b.js: permission denied")) := by decide +kernel
  obtain ⟨hresult₁, hreads₁⟩ := hknown _ _ (.noModule hw₁ hroot hd₁ hsources hfirst)
  obtain ⟨hresult₂, hreads₂⟩ := hunknown _ _ (.noRoot hw₂ rfl)
  refine ⟨hresult₁, ?_, hresult₂, ?_⟩
  · show (generateBundle (brokenImports.viewFrom (.ok ⟨"/app"⟩)) (.empty {}) ⟨"index.js"⟩
      {}).reads.length = 4 + 3
    rw [hreads₁, hd₁]
    rfl
  · show (generateBundle (brokenImports.viewFrom (.error (.other "gone"))) (.empty {}) ⟨"/app/index.js"⟩
      {}).reads.length = 4
    rw [hreads₂, hd₂]
    rfl

end ModuleBundler
