import ModuleBundler.Proofs.Walk.Confluence
import ModuleBundler.Proofs.Walk.Place
import Mathlib.Data.List.Find

/-!
# Walks that agree

A walk asks about places only. So two tables of answers that say the same of every place, up to the reason why a
file has no source, cannot be told apart by it: a reference leads to the same file (`resolve_eq`), and whatever
order the branches of a walk take on one of them, they can take it on the other (`schedules_of_sameAnswers`).
-/

namespace ModuleBundler

open ModuleBundler.Path

/-! ### Ends of a walk -/

/-- How a walk from `entry` may end, in whatever order its branches take turns. It fails when its entry is not to
be found or has no source; a file that is passed over needs none. -/
inductive Ends (files : Files) (options : Options) (entry : Path) : Except WalkError Report → Prop where
  | lost {e : WalkError} : entryPath files options entry = .error e → Ends files options entry (.error e)
  | unreadable {p : Path} {e : SourceError} : entryPath files options entry = .ok p →
      options.ignores p = false → files.source p = .error e → Ends files options entry (.error (.ofSource p e))
  | complete {p : Path} {report : Report} : entryPath files options entry = .ok p →
      (options.ignores p = true ∨ ∃ source, files.source p = .ok source) →
      Schedules files options (.start p) ⟨0, report⟩ → Ends files options entry (.ok report)

section

variable {files : Files} {options : Options} {entry p : Path}

/-- A walk whose entry is passed over has one branch, which does nothing. -/
theorem schedules_of_ignores (hi : options.ignores p = true) {s : FanOut} :
    Schedules files options (.start p) s ↔ s = .start p ∨ s = ⟨0, {}⟩ := by
  have hrun : (Branch.enter p 0).run files options {} = ({}, []) := run_enter_old (.inl hi)
  have hstep : Step files options (.start p) ⟨0, {}⟩ := by
    have h : Step files options ⟨.enter p 0 ::ₘ 0, {}⟩ _ := .run _ _ _
    rw [hrun] at h
    simpa [FanOut.start] using h
  constructor
  · intro h
    induction h with
    | refl => exact .inl rfl
    | tail _ hs ih =>
      obtain ⟨b, rest, report⟩ := hs
      rcases ih with he | he
      · have hb : b = .enter p 0 ∧ rest = 0 := by
          have hpool : b ::ₘ rest = {.enter p 0} := congrArg FanOut.pool he
          exact (Multiset.cons_eq_cons.mp (hpool.trans (Multiset.cons_zero _).symm)).elim id (by simp)
        have hreport : report = {} := congrArg FanOut.report he
        obtain ⟨rfl, rfl⟩ := hb
        subst hreport
        rw [hrun]
        exact .inr (by simp)
      · exact absurd (congrArg FanOut.pool he) (Multiset.cons_ne_zero)
  · rintro (rfl | rfl)
    · exact .refl
    · exact .single hstep

/-- Visiting one file after the other is one way for a walk to end. -/
theorem ends_walk (files : Files) (options : Options) (entry : Path) :
    Ends files options entry (walk files options entry) := by
  cases hp : entryPath files options entry with
  | error e =>
    have hw : walk files options entry = .error e := by simp [walk, explore, hp]
    exact hw ▸ .lost hp
  | ok p =>
    cases hi : options.ignores p with
    | true =>
      have hw : walk files options entry = .ok {} := by
        obtain ⟨descend, hx⟩ := explore_eq_visitWith hp
        simp [walk, hx, visitWith, hi]
      exact hw ▸ .complete hp (.inl hi) ((schedules_of_ignores hi).mpr (.inr rfl))
    | false =>
      cases hs : files.source p with
      | ok source =>
        obtain ⟨report, hw, hrun⟩ := exists_walk_eq hp hs
        exact hw ▸ .complete hp (.inr ⟨source, hs⟩) hrun
      | error e =>
        have hw : walk files options entry = .error (.ofSource p e) := by
          obtain ⟨descend, hx⟩ := explore_eq_visitWith hp
          simp [walk, hx, visitWith, hi, hs, DependencySet.empty, DependencySet.contains]
        exact hw ▸ .unreadable hp hi hs

/-- A walk whose entry is at `p` ends with the fault of `p`, or with a complete run of its branches. -/
theorem Ends.cases_of_entryPath {x : Except WalkError Report} (hx : Ends files options entry x)
    (hp : entryPath files options entry = .ok p) :
    (∃ e, options.ignores p = false ∧ files.source p = .error e ∧ x = .error (.ofSource p e)) ∨
      ∃ report, (options.ignores p = true ∨ ∃ source, files.source p = .ok source) ∧
        Schedules files options (.start p) ⟨0, report⟩ ∧ x = .ok report := by
  cases hx with
  | lost hq =>
    rw [hp] at hq
    cases hq
  | @unreadable q e hq hi hs =>
    obtain rfl := Except.ok.inj (hp.symm.trans hq)
    exact .inl ⟨e, hi, hs, rfl⟩
  | @complete q report hq hs hrun =>
    obtain rfl := Except.ok.inj (hp.symm.trans hq)
    exact .inr ⟨report, hs, hrun, rfl⟩

/-- A walk whose entry is passed over finds nothing. -/
theorem eq_empty_of_ignores (hi : options.ignores p = true) {report : Report}
    (h : Schedules files options (.start p) ⟨0, report⟩) : report = {} := by
  rcases (schedules_of_ignores hi).mp h with he | he
  · have hpool : (0 : Multiset Branch) = {.enter p 0} := congrArg FanOut.pool he
    exact absurd hpool.symm (Multiset.singleton_ne_zero _)
  · exact congrArg FanOut.report he

end

/-! ### The same answers -/

/-- The same answers about all places, up to the reason why a file has no source. -/
structure SameAnswers (files files' : Files) : Prop where
  isFile : ∀ p, p.IsPlace → files.isFile p = files'.isFile p
  source : ∀ p, p.IsPlace → (files.source p).toOption = (files'.source p).toOption
  left : files.RootIsNoFile
  right : files'.RootIsNoFile

section

variable {files files' : Files} {options : Options} (h : SameAnswers files files')
  (he : ∀ ext ∈ options.extensions, isExtension ext = true)

include h he

/-- **A reference leads to the same file.** -/
theorem resolve_eq {importer : Path} (hp : importer.IsPlace) (hne : importer ≠ top) (specifier : String) :
    resolve files options importer specifier = resolve files' options importer specifier := by
  unfold resolve
  split
  · refine List.find?_congr fun q hq => ?_
    rcases isPlace_of_mem_probes he (isPlace_candidatePath hp hne specifier) hq with hq | rfl
    · exact h.isFile q hq
    · rw [h.left.isFile, h.right.isFile]
  · rfl

omit he in
/-- A file has the same text on both sides, or none on both. -/
theorem SameAnswers.source_cases {p : Path} (hp : p.IsPlace) :
    (∃ source, files.source p = .ok source ∧ files'.source p = .ok source) ∨
      ∃ e e', files.source p = .error e ∧ files'.source p = .error e' := by
  have hs := h.source p hp
  cases hs₁ : files.source p with
  | error e =>
    cases hs₂ : files'.source p with
    | error e' => exact .inr ⟨e, e', rfl, rfl⟩
    | ok source => simp [hs₁, hs₂, Except.toOption] at hs
  | ok source =>
    cases hs₂ : files'.source p with
    | error e' => simp [hs₁, hs₂, Except.toOption] at hs
    | ok source' =>
      simp only [hs₁, hs₂, Except.toOption, Option.some.injEq] at hs
      exact .inl ⟨source, rfl, by rw [hs]⟩

end

/-! ### Branches -/

/-- Whether a branch is about places, the file of a reference being one with a directory. -/
def Branch.AtPlace : Branch → Prop
  | .follow importer _ _ => importer.IsPlace ∧ importer ≠ top
  | .enter p _ => p.IsPlace
  | .read p _ => p.IsPlace

section

variable {files files' : Files} {options : Options} {b : Branch} {s s' : FanOut}

/-- A branch about places leaves branches about places. -/
theorem Branch.AtPlace.run (hf : files.RootIsNoFile) (he : ∀ ext ∈ options.extensions, isExtension ext = true)
    (hb : b.AtPlace) (report : Report) : ∀ b' ∈ (b.run files options report).2, b'.AtPlace := by
  intro b' hb'
  cases b with
  | follow importer depth r =>
    rw [run_follow] at hb'
    obtain ⟨q, hq, rfl⟩ := List.mem_map.mp hb'
    have hq := (target?_eq_some_iff.mp (Option.mem_toList.mp hq)).2
    exact (isPlace_of_resolve hf he hb.1 hb.2 hq).1
  | enter p depth =>
    rw [Branch.run] at hb'
    split_ifs at hb'
    · exact absurd hb' List.not_mem_nil
    · rw [List.mem_singleton.mp hb']
      exact hb
  | read p depth =>
    rw [run_read] at hb'
    obtain ⟨source, r, hs, -, rfl⟩ := exists_of_mem_follows hb'
    refine ⟨hb, ?_⟩
    rintro rfl
    exact hf.source source hs

variable (h : SameAnswers files files') (he : ∀ ext ∈ options.extensions, isExtension ext = true)

include h he

/-- A branch about places does the same on both sides. -/
theorem Branch.AtPlace.run_eq (hb : b.AtPlace) (report : Report) :
    b.run files options report = b.run files' options report := by
  cases b with
  | follow importer depth r => rw [Branch.run, Branch.run, resolve_eq h he hb.1 hb.2]
  | enter p depth => rfl
  | read p depth =>
    rw [Branch.run, Branch.run]
    rcases h.source_cases hb with ⟨source, hs, hs'⟩ | ⟨e, e', hs, hs'⟩ <;> rw [hs, hs']

/-- **The branches can take every order on both sides.** -/
theorem schedules_of_sameAnswers (hs : ∀ b ∈ s.pool, b.AtPlace) (hrun : Schedules files options s s') :
    Schedules files' options s s' ∧ ∀ b ∈ s'.pool, b.AtPlace := by
  induction hrun with
  | refl => exact ⟨.refl, hs⟩
  | tail _ hstep ih =>
    obtain ⟨hrun, hpool⟩ := ih
    obtain ⟨b, rest, report⟩ := hstep
    have hb := hpool b (Multiset.mem_cons_self b rest)
    constructor
    · rw [hb.run_eq h he]
      exact hrun.tail (.run b rest report)
    · intro b' hb'
      rcases Multiset.mem_add.mp hb' with hb' | hb'
      · exact hb.run h.left he report b' hb'
      · exact hpool b' (Multiset.mem_cons_of_mem hb')

end

/-! ### Outcomes -/

/-- Two walks end alike: both fail, or both find the same files, and with them the same references that lead
nowhere and the same files without a source, each as often. -/
inductive SameOutcome : Except WalkError Report → Except WalkError Report → Prop where
  | failed {e e' : WalkError} : SameOutcome (.error e) (.error e')
  | found {report report' : Report} : report.dependencies.sameMembers report'.dependencies = true →
      (report.unresolved.map Unresolved.place).Perm (report'.unresolved.map Unresolved.place) →
      (report.failed.map Path.parts).Perm (report'.failed.map Path.parts) →
      SameOutcome (.ok report) (.ok report')

section

variable {store : FileStore} {options : Options} {entry p : Path} {final final' : Report}

/-- Complete runs that are sound have put the same files into the set. -/
theorem Sound.sameMembers (h : Sound store.view options p ⟨0, final⟩)
    (h' : Sound store.view options p ⟨0, final'⟩) :
    final.dependencies.sameMembers final'.dependencies = true := by
  have hlength : final.dependencies.size = final'.dependencies.size := by
    simpa [DependencySet.size] using (h.perm_paths h').length_eq
  rw [DependencySet.sameMembers, hlength, beq_self_eq_true, Bool.true_and, List.all_eq_true]
  intro q hq
  obtain ⟨n, hn⟩ := h.reached q hq
  exact h'.contains_of_chain hn

theorem Sound.sameOutcome (h : Sound store.view options p ⟨0, final⟩)
    (h' : Sound store.view options p ⟨0, final'⟩) : SameOutcome (.ok final) (.ok final') := by
  have hledger : final.ledger = final'.ledger := h.ledger_eq h'
  exact .found (h.sameMembers h') (Multiset.coe_eq_coe.mp (congrArg (·.2.2) hledger))
    (Multiset.coe_eq_coe.mp (congrArg (·.2.1) hledger))

/-- **Walks end alike** where the answers about places are the same as in memory, if the limit is not smaller than
the number of files within reach of a readable entry. -/
theorem sameOutcome_of_ends {files : Files} (h : SameAnswers files store.view)
    (he : ∀ ext ∈ options.extensions, isExtension ext = true)
    (hp : entryPath files options entry = .ok p) (hp' : entryPath store.view options entry = .ok p)
    (hplace : p.IsPlace) (hw : (∃ source, store.view.source p = .ok source) →
      (reachable store.view options p).encard ≤ options.maxDepth.toNat)
    {x y : Except WalkError Report} (hx : Ends files options entry x) (hy : Ends store.view options entry y) :
    SameOutcome x y := by
  have hstart : ∀ b ∈ (FanOut.start p).pool, b.AtPlace := by
    intro b hb
    rw [Multiset.mem_singleton.mp hb]
    exact hplace
  rcases hx.cases_of_entryPath hp with ⟨e, hi, hs, rfl⟩ | ⟨report, hs, hrun, rfl⟩ <;>
    rcases hy.cases_of_entryPath hp' with ⟨e', hi', hs', rfl⟩ | ⟨report', hs', hrun', rfl⟩
  · exact .failed
  · rcases h.source_cases hplace with ⟨source, hok, -⟩ | ⟨_, e', -, herr⟩
    · rw [hs] at hok
      cases hok
    · rcases hs' with hi' | ⟨source, hs'⟩
      · rw [hi] at hi'
        cases hi'
      · rw [herr] at hs'
        cases hs'
  · rcases h.source_cases hplace with ⟨source, -, hok⟩ | ⟨e, _, herr, -⟩
    · rw [hs'] at hok
      cases hok
    · rcases hs with hi | ⟨source, hs⟩
      · rw [hi'] at hi
        cases hi
      · rw [herr] at hs
        cases hs
  · obtain ⟨hrun, -⟩ := schedules_of_sameAnswers h he hstart hrun
    cases hi : options.ignores p with
    | true =>
      rw [eq_empty_of_ignores hi hrun, eq_empty_of_ignores hi hrun']
      exact .found rfl .rfl .rfl
    | false =>
      have hw := hw (hs'.resolve_left (by simp [hi]))
      have hsound := (sound_start p).schedules hw hi hrun
      exact hsound.sameOutcome ((sound_start p).schedules hw hi hrun')

end

end ModuleBundler
