import ModuleBundler.Proofs.Walk.Closure
import ModuleBundler.Proofs.Walk.Confluence
import ModuleBundler.Proofs.Walk.Place

/-!
# What a walk reports

A reference that leads nowhere is listed when it is followed, and a file without a source when the walk comes back
from it. Every file of the set is gone through once, on whichever route it was met first, and every other route to
it ends there. So the report holds what the files of the set contribute, each once: this is kept from visit to visit
(`Adds`, `adds_visit`), whatever the limit.

The limit shows in one place only. A file that was met at the limit has its references followed like any other file,
but what they lead to is not visited any more (`walk_accounts_for_references`).
-/

namespace ModuleBundler

section

variable (files : Files) (options : Options)

/-! ### Accounts -/

/-- `report'` tells what `report` tells, and besides what the files `met` contribute, which come into the set in this
order, and the references `loose`. -/
structure Adds (report report' : Report) (met : List Path) (loose : List Unresolved) : Prop where
  paths : report'.dependencies.paths = report.dependencies.paths ++ met
  unresolved : report'.unresolved.Perm (report.unresolved ++ (loose ++ met.flatMap (danglings files options)))
  failed : report'.failed = report.failed ++ met.filter fun p => !(files.source p).isOk

variable {files options}

theorem Adds.refl (report : Report) : Adds files options report report [] [] :=
  ⟨by simp, by simp, by simp⟩

theorem Adds.trans {report₁ report₂ report₃ : Report} {met met' : List Path} {loose loose' : List Unresolved}
    (h : Adds files options report₁ report₂ met loose) (h' : Adds files options report₂ report₃ met' loose') :
    Adds files options report₁ report₃ (met ++ met') (loose ++ loose') where
  paths := by rw [h'.paths, h.paths, List.append_assoc]
  unresolved := by
    have hboth := h'.unresolved.trans (h.unresolved.append_right _)
    rw [← Multiset.coe_eq_coe] at hboth ⊢
    simp only [List.flatMap_append, ← Multiset.coe_add] at hboth ⊢
    rw [hboth]
    abel
  failed := by rw [h'.failed, h.failed, List.filter_append, List.append_assoc]

/-! ### Visits -/

/-- The references of a file are followed one after the other. -/
theorem adds_foldl {descend : Visit}
    (hd : ∀ q report, ∃ met, Adds files options report (settled q (descend q report)) met []) (p : Path)
    (rs : List Reference) : ∀ report, ∃ met,
      Adds files options report (rs.foldl (followReference files options descend p) report) met
        (rs.filterMap (dangling? files options p)) := by
  induction rs with
  | nil => exact fun report => ⟨[], .refl report⟩
  | cons r rs ih =>
    intro report
    rw [List.foldl_cons, followReference_eq]
    cases ht : target? files options p r with
    | none =>
      obtain ⟨met, h⟩ := ih { report with
        unresolved := report.unresolved ++ (dangling? files options p r).toList }
      have hr : Adds files options report { report with
          unresolved := report.unresolved ++ (dangling? files options p r).toList } []
          (dangling? files options p r).toList := ⟨by simp, by simp, by simp⟩
      refine ⟨met, ?_⟩
      cases hl : dangling? files options p r <;> simpa [hl] using hr.trans h
    | some q =>
      obtain ⟨met, h⟩ := hd q report
      obtain ⟨met', h'⟩ := ih (settled q (descend q report))
      rw [List.filterMap_cons_none (dangling?_of_target? ht)]
      exact ⟨met ++ met', h.trans h'⟩

/-- A visit adds the file, unless there is a reason to pass it over, and then what its references lead to. -/
theorem adds_visitWith {descend : Visit}
    (hd : ∀ q report, ∃ met, Adds files options report (settled q (descend q report)) met []) (p : Path)
    (report : Report) :
    ∃ met, Adds files options report (settled p (visitWith files options descend p report)) met [] := by
  unfold visitWith
  split_ifs with hc
  · exact ⟨[], .refl report⟩
  have hnew : report.dependencies.contains p = false := by
    simp only [Bool.or_eq_true, not_or, Bool.not_eq_true] at hc
    exact hc.2
  have hpaths : (report.dependencies.insert p).paths = report.dependencies.paths ++ [p] := by
    rw [DependencySet.paths_insert, if_neg (by simp [hnew])]
  cases hs : files.source p with
  | error e =>
    exact ⟨[p], hpaths, by simp [settled, danglings, hs], by simp [settled, hs, Except.isOk, Except.toBool]⟩
  | ok source =>
    obtain ⟨met, h⟩ := adds_foldl hd p (references source)
      { report with dependencies := report.dependencies.insert p, reads := report.reads ++ [p] }
    -- the references of the file itself are what it contributes
    have hloose : (references source).filterMap (dangling? files options p) = danglings files options p := by
      rw [danglings, hs]
    rw [hloose] at h
    refine ⟨p :: met, ?_, ?_, ?_⟩
    · simp only [settled, h.paths, hpaths, List.append_assoc, List.singleton_append]
    · simpa [settled] using h.unresolved
    · simpa [settled, hs, Except.isOk, Except.toBool] using h.failed

/-- **A visit accounts for all files that it adds**, whatever the limit. -/
theorem adds_visit (further : Nat) : ∀ p report,
    ∃ met, Adds files options report (settled p (visit files options further p report)) met [] := by
  induction further with
  | zero => exact adds_visitWith fun q report => ⟨[], .refl report⟩
  | succ further ih => exact adds_visitWith ih

/-! ### Walks -/

/-- **A walk accounts for all files of its set**: what they contribute is in the report, and nothing else is. -/
theorem adds_walk {entry : Path} {report : Report} (h : walk files options entry = .ok report) :
    Adds files options {} report report.dependencies.paths [] := by
  unfold walk explore at h
  cases hp : entryPath files options entry with
  | error e => simp [hp] at h
  | ok p =>
    obtain ⟨met, hadds⟩ : ∃ met, Adds files options {}
        (settled p (visit files options options.maxDepth.toNat p {})) met [] := adds_visit _ p {}
    rw [hp] at h
    cases hv : visit files options options.maxDepth.toNat p {} with
    | mk report' e =>
      rw [hv] at hadds
      cases e with
      | some e => simp [hv] at h
      | none =>
        obtain rfl : report' = report := by simpa [hv] using h
        obtain rfl : report'.dependencies.paths = met := hadds.paths
        exact hadds

/-- A walk that succeeds has passed over its entry, or its entry has a source and comes first. -/
theorem entry_of_walk {entry : Path} {report : Report} (h : walk files options entry = .ok report) :
    ∃ p, entryPath files options entry = .ok p ∧ (report.dependencies.paths = [] ∨
      (files.source p).isOk = true ∧ report.dependencies.paths.head? = some p) := by
  cases hp : entryPath files options entry with
  | error e => simp [walk, explore, hp] at h
  | ok p =>
    refine ⟨p, rfl, ?_⟩
    have hag := agrees_walk h hp
    obtain ⟨descend, he⟩ := explore_eq_visitWith hp
    unfold walk at h
    rw [he, visitWith] at h
    cases hi : options.ignores p with
    | true =>
      rw [hi] at h
      obtain rfl : ({} : Report) = report := by simpa using h
      exact .inl rfl
    | false =>
      refine .inr ⟨?_, ?_⟩
      · cases hs : files.source p with
        | ok source => rfl
        | error e => simp [hi, hs, DependencySet.contains, DependencySet.empty] at h
      · have hex : Explored files options p options.maxDepth.toNat (meetings files options p) := explored_meetings hi
        rw [hag.paths, List.head?_map, hex.first]
        rfl

/-- A file that is listed as one that leads nowhere stands in a path reference. -/
theorem isPathSpecifier_of_mem_danglings {p : Path} {u : Unresolved} (h : u ∈ danglings files options p) :
    isPathSpecifier u.specifier = true := by
  unfold danglings at h
  cases hs : files.source p with
  | error e => simp [hs] at h
  | ok source =>
    rw [hs] at h
    obtain ⟨r, -, hr⟩ := List.mem_filterMap.mp h
    unfold dangling? at hr
    split_ifs at hr with hb
    split at hr
    · obtain rfl := Option.some.inj hr
      simpa [Reference.isBare, Reference.isPath] using hb
    · cases hr

end

/-- **A walk accounts for every reference.** A walk that succeeds lists one unresolved reference for each path
reference in a file of its set that leads to no file, as often as it occurs, and it lists the files of its set below
the entry that have no source, in the order of the set and none of them twice. References to other things than paths
show nowhere: each unresolved reference is a path, and each file below the entry is what a path reference in an
earlier file leads to, on whose route it lies one reference further away. Whatever a path reference in a file of the
set leads to is in the set, or it is ignored, or it lies further away than the limit on the route on which the file
was met. -/
theorem walk_accounts_for_references (files : Files) {options : Options} {entry : Path} {report : Report}
    (h : walk files options entry = .ok report) :
    report.unresolved.Perm (report.dependencies.paths.flatMap (danglings files options)) ∧
    report.failed = report.dependencies.paths.tail.filter (fun q => !(files.source q).isOk) ∧
    report.failed.Pairwise (fun q r => q.parts ≠ r.parts) ∧
    (∀ u ∈ report.unresolved, isPathSpecifier u.specifier = true) ∧
    ∃ p, entryPath files options entry = .ok p ∧
      (meetings files options p).map (·.path) = report.dependencies.paths ∧
      (∀ m, (meetings files options p).head? = some m → m = ⟨p, 0⟩) ∧
      (∀ before m after, meetings files options p = before ++ m :: after → before ≠ [] →
        ∃ m₀ ∈ before, m.depth = m₀.depth + 1 ∧ IsChild files options m₀.path m.path) ∧
      ∀ m ∈ meetings files options p, ∀ source, files.source m.path = .ok source →
        ∀ r ∈ references source, r.isPath = true → ∀ q, resolve files options m.path r.specifier = some q →
          report.dependencies.contains q = true ∨ options.ignores q = true ∨
            options.maxDepth.toNat < m.depth + 1 := by
  obtain ⟨p, hp, hentry⟩ := entry_of_walk h
  have hadds := adds_walk h
  have hag := agrees_walk h hp
  have hunresolved : report.unresolved.Perm (report.dependencies.paths.flatMap (danglings files options)) := by
    simpa using hadds.unresolved
  have hfailed : report.failed = report.dependencies.paths.filter fun q => !(files.source q).isOk := by
    simpa using hadds.failed
  have hroutes : (∀ m, (meetings files options p).head? = some m → m = ⟨p, 0⟩) ∧
      ∀ before m after, meetings files options p = before ++ m :: after → before ≠ [] →
        ∃ m₀ ∈ before, m.depth = m₀.depth + 1 ∧ IsChild files options m₀.path m.path := by
    cases hi : options.ignores p with
    | true => simp [meetings_of_ignores hi]
    | false =>
      have hex : Explored files options p options.maxDepth.toNat (meetings files options p) := explored_meetings hi
      refine ⟨fun m hm => ?_, hex.grounded⟩
      rw [hex.first] at hm
      exact (Option.some.inj hm).symm
  refine ⟨hunresolved, ?_, ?_, fun u hu => ?_, p, hp, hag.paths.symm, hroutes.1, hroutes.2, ?_⟩
  · -- the entry has a source, so that it is not among the files that are listed
    rw [hfailed]
    rcases hentry with hnil | ⟨hok, hhead⟩
    · rw [hnil, List.tail_nil]
    · obtain ⟨rest, hrest⟩ := List.head?_eq_some_iff.mp hhead
      rw [hrest, List.tail_cons, List.filter_cons_of_neg (by simp [hok])]
  · rw [hfailed]
    exact report.dependencies.distinct.filter _
  · obtain ⟨q, -, hq⟩ := List.mem_flatMap.mp (hunresolved.subset hu)
    exact isPathSpecifier_of_mem_danglings hq
  · intro m hm source hs r hr hpath q hq
    by_cases hd : m.depth < options.maxDepth.toNat
    · cases hi : options.ignores q with
      | true => exact .inr (.inl rfl)
      | false =>
        rw [hag.contains]
        exact .inl (closed_meetings hm hd q ⟨source, hs, r, hr, hpath, hq, hi⟩)
    · exact .inr (.inr (by omega))

/-- Files with references of every kind: to files, to a file that is no text, to an ignored one, to nothing, and to
something that is no path. -/
def leftovers : FileStore where
  workingDirectory := ⟨"/app"⟩
  files :=
    [(⟨"/app/index.js"⟩, "import './a';import './x';import './x';import 'x';".toUTF8),
      (⟨"/app/a.js"⟩, "import './b';import './c';import './skip';".toUTF8),
      (⟨"/app/b.js"⟩, "import './c';import './d';import './x';".toUTF8),
      (⟨"/app/c.js"⟩, ⟨#[0xff]⟩), (⟨"/app/d.js"⟩, "".toUTF8), (⟨"/app/skip.js"⟩, "".toUTF8)]

/-- Options with a limit that leaves out one file of `leftovers`, and a pattern that leaves out another one. -/
def leftoverOptions : Options := { extensions := [".js"], ignorePatterns := ["skip"], maxDepth := 2 }

theorem walk_accounts_for_references_leftovers :
    ∃ report, walk leftovers.view leftoverOptions ⟨"index.js"⟩ = .ok report ∧
      report.dependencies.paths = [⟨"/app/index.js"⟩, ⟨"/app/a.js"⟩, ⟨"/app/b.js"⟩, ⟨"/app/c.js"⟩] ∧
      report.unresolved.Perm [⟨"./x", ⟨"/app/index.js"⟩⟩, ⟨"./x", ⟨"/app/index.js"⟩⟩,
        ⟨"./x", ⟨"/app/b.js"⟩⟩] ∧
      report.failed = [⟨"/app/c.js"⟩] ∧
      ∀ m ∈ meetings leftovers.view leftoverOptions ⟨"/app/index.js"⟩, ∀ source,
        leftovers.view.source m.path = .ok source → ∀ r ∈ references source, r.isPath = true →
          ∀ q, resolve leftovers.view leftoverOptions m.path r.specifier = some q →
            report.dependencies.contains q = true ∨ leftoverOptions.ignores q = true ∨ 2 < m.depth + 1 := by
  have hpaths : (walk leftovers.view leftoverOptions ⟨"index.js"⟩).map (·.dependencies.paths) =
      .ok [⟨"/app/index.js"⟩, ⟨"/app/a.js"⟩, ⟨"/app/b.js"⟩, ⟨"/app/c.js"⟩] := by decide +kernel
  obtain ⟨report, hw, hpaths⟩ := exists_report_of_map hpaths
  obtain ⟨hunresolved, hfailed, -, -, p, hp, -, -, -, hrest⟩ := walk_accounts_for_references _ hw
  have hentry : entryPath leftovers.view leftoverOptions ⟨"index.js"⟩ = .ok ⟨"/app/index.js"⟩ := by decide +kernel
  obtain rfl := Except.ok.inj (hentry.symm.trans hp)
  rw [hpaths] at hunresolved hfailed
  refine ⟨report, hw, hpaths, hunresolved.trans (.of_eq ?_), hfailed.trans ?_, hrest⟩
  · decide +kernel
  · decide +kernel

end ModuleBundler
