import ModuleBundler.Proofs.Walk.Discovery

/-!
# A walk finds what the entry leads to

What a walk returns is reached from the entry, and nothing that is reached is missing as long as the
limit cannot have cut anything off (`walk_finds_reachable`). A file that lies at the limit was met after
as many other files as the limit allows references, so a set that is not larger than the limit holds no
such file. Cycles, files with several importers, files that refer to themselves and files that cannot be
read are all among the files of a store.
-/

namespace ModuleBundler

/-! ### Walks and meetings -/

/-- Exploring begins with a visit to the entry. -/
theorem explore_eq_visitWith {files : Files} {options : Options} {entry p : Path}
    (hp : entryPath files options entry = .ok p) :
    ∃ descend, explore files options entry = visitWith files options descend p {} := by
  unfold explore
  rw [hp]
  cases hd : options.maxDepth.toNat with
  | zero => exact ⟨fun _ report => (report, none), rfl⟩
  | succ further => exact ⟨visit files options further, rfl⟩

/-- A walk that succeeds has met the files that `meetings` lists, and has read each of them once. -/
theorem agrees_walk {files : Files} {options : Options} {entry p : Path} {report : Report}
    (h : walk files options entry = .ok report) (hp : entryPath files options entry = .ok p) :
    Agrees report (meetings files options p) := by
  have hv : Agrees (visit files options options.maxDepth.toNat p {}).1 (meetings files options p) :=
    agrees_visit options.maxDepth.toNat 0 p {} [] ⟨rfl, rfl⟩
  unfold walk explore at h
  rw [hp] at h
  cases hr : visit files options options.maxDepth.toNat p {} with
  | mk report' e =>
    simp only [hr] at h
    rw [hr] at hv
    cases e with
    | none => exact Except.ok.inj h ▸ hv
    | some e => simp at h

/-- In memory, a file is met when it is a child of a place all of whose children were met. -/
theorem isMet_of_isChild {store : FileStore} {options : Options} {met : List Meeting} {m : Meeting}
    {p q : Path} (hm : Closed store.view options met m.path) (he : m.path.parts = p.parts)
    (hq : IsChild store.view options p q) : isMet met q = true :=
  hm q (isChild_congr store he.symm hq)

/-- In memory, a walk misses nothing if all files that it met were met before the limit. -/
theorem isMet_meetings_of_chain {store : FileStore} {options : Options} {entry : Path}
    (hi : options.ignores entry = false)
    (h : ∀ m ∈ meetings store.view options entry, m.depth < options.maxDepth.toNat) {n : Nat} {q : Path}
    (hc : Chain (IsChild store.view options) n entry q) :
    isMet (meetings store.view options entry) q = true := by
  refine hc.induct (P := fun q => isMet (meetings store.view options entry) q = true)
    (isMet_meet _ _ hi _) fun p q hp hq => ?_
  obtain ⟨m, hm, he⟩ := isMet_eq_true_iff.mp hp
  exact isMet_of_isChild (closed_meetings hm (h m hm)) he hq

/-! ### Found and reachable files -/

/-- **A walk finds what the entry leads to.** The set that a walk returns begins with the entry and holds
no file twice. Every other file in it is a child of an earlier one, a chain of no more steps than the
limit leads to every file in it, and every file in it was read once. A set with no more files than the
limit holds every file that any chain leads to. -/
theorem walk_finds_reachable (store : FileStore) {options : Options} {entry p : Path} {report : Report}
    (h : walk store.view options entry = .ok report)
    (hp : entryPath store.view options entry = .ok p) (hi : options.ignores p = false) :
    report.dependencies.paths.head? = some p ∧
    report.dependencies.paths.Pairwise (fun q r => q.parts ≠ r.parts) ∧
    (∀ before q after, report.dependencies.paths = before ++ q :: after → before ≠ [] →
      ∃ r ∈ before, IsChild store.view options r q) ∧
    (∀ q ∈ report.dependencies.paths, ∃ n ≤ options.maxDepth.toNat,
      Chain (IsChild store.view options) n p q) ∧
    report.reads = report.dependencies.paths ∧
    (report.dependencies.size ≤ options.maxDepth.toNat → ∀ n q,
      Chain (IsChild store.view options) n p q → report.dependencies.contains q = true) := by
  have hag := agrees_walk h hp
  have hex : Explored store.view options p options.maxDepth.toNat (meetings store.view options p) :=
    explored_meetings hi
  refine ⟨?_, report.dependencies.distinct, ?_, ?_, ?_, ?_⟩
  · rw [hag.paths, List.head?_map, hex.first]
    rfl
  · intro before q after he hne
    rw [hag.paths] at he
    obtain ⟨before', rest, hmet, rfl, hrest⟩ := List.map_eq_append_iff.mp he
    obtain ⟨m, after', rfl, rfl, -⟩ := List.map_eq_cons_iff.mp hrest
    obtain ⟨m₀, hm₀, -, hc⟩ := hex.grounded before' m after' hmet (by simpa using hne)
    exact ⟨m₀.path, List.mem_map_of_mem hm₀, hc⟩
  · intro q hq
    rw [hag.paths] at hq
    obtain ⟨m, hm, rfl⟩ := List.mem_map.mp hq
    exact ⟨m.depth, hex.within m hm, (hex.route m hm).mono fun _ _ hl => hl.1⟩
  · rw [hag.reads, hag.paths]
  · intro hsize n q hc
    rw [hag.contains]
    refine isMet_meetings_of_chain hi (fun m hm => ?_) hc
    -- a file at the limit would have as many files before it as the limit allows references
    have hcount := hex.counted m hm
    unfold DependencySet.size at hsize
    rw [hag.paths, List.length_map] at hsize
    omega

/-- Files that refer to one another and to themselves: `near.js` can be reached from the entry along a
route of three references and along a route of one. -/
def detour : FileStore :=
  [("index.js", "import './far';\nimport './near';\nimport './index';"), ("far.js", "import './further';"),
    ("further.js", "import './near';\nimport './index';"), ("near.js", "import './last';"),
    ("last.js", "")].foldl
    (fun store file => store.insert ⟨file.1⟩ file.2.toUTF8) (.empty ⟨"/app"⟩)

/-- The paths of the files of `detour`, as a walk finds them. -/
def detourPaths : List Path :=
  [⟨"/app/index.js"⟩, ⟨"/app/far.js"⟩, ⟨"/app/further.js"⟩, ⟨"/app/near.js"⟩, ⟨"/app/last.js"⟩]

theorem walk_finds_reachable_detour :
    ∃ report, walk detour.view {} ⟨"index.js"⟩ = .ok report ∧
      entryPath detour.view {} ⟨"index.js"⟩ = .ok ⟨"/app/index.js"⟩ ∧
      report.dependencies.paths = detourPaths ∧ report.reads = detourPaths ∧
      ∀ n q, Chain (IsChild detour.view {}) n ⟨"/app/index.js"⟩ q →
        report.dependencies.contains q = true := by
  have hentry : entryPath detour.view {} ⟨"index.js"⟩ = .ok ⟨"/app/index.js"⟩ := by decide +kernel
  have hpaths : (walk detour.view {} ⟨"index.js"⟩).map (·.dependencies.paths) = .ok detourPaths := by
    decide +kernel
  cases h : walk detour.view {} ⟨"index.js"⟩ with
  | error e => rw [h] at hpaths; cases hpaths
  | ok report =>
    rw [h] at hpaths
    have hpaths : report.dependencies.paths = detourPaths := Except.ok.inj hpaths
    obtain ⟨-, -, -, -, hreads, hall⟩ := walk_finds_reachable detour h hentry (by decide +kernel)
    refine ⟨report, rfl, hentry, hpaths, hreads.trans hpaths, hall ?_⟩
    unfold DependencySet.size
    rw [hpaths]
    decide +kernel

end ModuleBundler
