import ModuleBundler.Proofs.Walk.Graph
import Mathlib.Algebra.BigOperators.Group.Multiset.Basic
import Mathlib.Logic.Relation

/-!
# A walk as a pool of branches

The references of a file may be followed at the same time. A walk is then a pool of pending branches, each of
which waits to follow one reference, to enter one file, or to read one file that it has entered. Nothing is
said about which branch goes on next: any one of them may (`Step`).

Testing whether a file is ignored, lies too far away or was met before, and putting it into the set, is one
step. Reading it is another, and other branches may take steps in between.

The walk that visits one file after the other is one of these runs (`schedules_visit`).
-/

namespace ModuleBundler

/-! ### Branches -/

/-- A pending branch of a walk, with the number of references on its route. -/
inductive Branch where
  /-- To find the file that a reference of `importer` leads to. -/
  | follow (importer : Path) (depth : Nat) (r : Reference)
  /-- To put a file into the set, unless there is a reason not to. -/
  | enter (p : Path) (depth : Nat)
  /-- To read a file, and to branch for each of its references. -/
  | read (p : Path) (depth : Nat)

/-- A walk on its way: what is pending, and what is known. -/
structure FanOut where
  pool : Multiset Branch
  report : Report

section

variable (files : Files) (options : Options)

/-- What is known after a branch took its step, and the branches that it leaves. The entry of a walk is taken
to be readable: any other file that has no source is listed. -/
def Branch.run : Branch → Report → Report × List Branch
  | .follow importer depth r, report =>
    if r.isBare then (report, [])
    else match resolve files options importer r.specifier with
      | none => ({ report with unresolved := report.unresolved ++ [⟨r.specifier, importer⟩] }, [])
      | some child => (report, [.enter child (depth + 1)])
  | .enter p depth, report =>
    if options.ignores p || decide (options.maxDepth.toNat < depth) || report.dependencies.contains p then
      (report, [])
    else ({ report with dependencies := report.dependencies.insert p }, [.read p depth])
  | .read p depth, report =>
    match files.source p with
    | .error _ => ({ report with reads := report.reads ++ [p], failed := report.failed ++ [p] }, [])
    | .ok source => ({ report with reads := report.reads ++ [p] }, (references source).map (.follow p depth))

/-- One step of a walk: any of the pending branches goes on. -/
inductive Step : FanOut → FanOut → Prop where
  | run (b : Branch) (rest : Multiset Branch) (report : Report) :
    Step ⟨b ::ₘ rest, report⟩ ⟨(b.run files options report).2 + rest, (b.run files options report).1⟩

/-- Any number of steps, in any order. A run is complete when nothing is pending. -/
abbrev Schedules : FanOut → FanOut → Prop := Relation.ReflTransGen (Step files options)

/-- The walk from `entry` before its first step. -/
def FanOut.start (entry : Path) : FanOut := ⟨{.enter entry 0}, {}⟩

/-! ### One step in one equation -/

/-- The fault of a reference that leads nowhere. -/
def dangling? (p : Path) (r : Reference) : Option Unresolved :=
  if r.isBare then none
  else match resolve files options p r.specifier with
    | none => some ⟨r.specifier, p⟩
    | some _ => none

/-- The references of a file, one branch for each. -/
def follows (p : Path) (depth : Nat) : List Branch :=
  match files.source p with
  | .error _ => []
  | .ok source => (references source).map (.follow p depth)

/-- The file as a list, if it has no source. -/
def faults (p : Path) : List Path :=
  match files.source p with
  | .error _ => [p]
  | .ok _ => []

variable {files options}

theorem run_follow (p : Path) (depth : Nat) (r : Reference) (report : Report) :
    (Branch.follow p depth r).run files options report =
      ({ report with unresolved := report.unresolved ++ (dangling? files options p r).toList },
        (target? files options p r).toList.map (.enter · (depth + 1))) := by
  rw [Branch.run]
  unfold dangling? target?
  split_ifs
  · simp
  · cases resolve files options p r.specifier <;> simp

theorem run_read (p : Path) (depth : Nat) (report : Report) :
    (Branch.read p depth).run files options report =
      ({ report with reads := report.reads ++ [p], failed := report.failed ++ faults files p },
        follows files p depth) := by
  rw [Branch.run]
  unfold faults follows
  cases files.source p <;> simp

/-- A branch that a file leaves follows a reference of its source. -/
theorem exists_of_mem_follows {p : Path} {depth : Nat} {b : Branch} (h : b ∈ follows files p depth) :
    ∃ source r, files.source p = .ok source ∧ r ∈ references source ∧ b = .follow p depth r := by
  unfold follows at h
  cases hs : files.source p with
  | error e =>
    rw [hs] at h
    exact absurd h List.not_mem_nil
  | ok source =>
    rw [hs] at h
    obtain ⟨r, hr, rfl⟩ := List.mem_map.mp h
    exact ⟨source, r, rfl, hr, rfl⟩

theorem run_enter_new {p : Path} {depth : Nat} {report : Report} (hi : options.ignores p = false)
    (hd : depth ≤ options.maxDepth.toNat) (hc : report.dependencies.contains p = false) :
    (Branch.enter p depth).run files options report =
      ({ report with dependencies := report.dependencies.insert p }, [.read p depth]) := by
  rw [Branch.run, if_neg (by simp [hi, hd, hc])]

theorem run_enter_old {p : Path} {depth : Nat} {report : Report}
    (h : options.ignores p = true ∨ options.maxDepth.toNat < depth ∨ report.dependencies.contains p = true) :
    (Branch.enter p depth).run files options report = (report, []) := by
  rw [Branch.run, if_pos]
  rcases h with h | h | h <;> simp [h]

/-- A reference that leads to a file does not lead nowhere. -/
theorem dangling?_of_target? {p q : Path} {r : Reference} (h : target? files options p r = some q) :
    dangling? files options p r = none := by
  unfold target? at h
  unfold dangling?
  split_ifs at h ⊢
  rw [h]

/-! ### Depth first is one of the orders -/

/-- What a visit leaves known to the file that led to it: a file without a source is listed. -/
def settled (q : Path) : Report × Option WalkError → Report
  | (report, none) => report
  | (report, some _) => { report with failed := report.failed ++ [q] }

theorem followReference_eq (descend : Visit) (p : Path) (report : Report) (r : Reference) :
    followReference files options descend p report r =
      match target? files options p r with
      | none => { report with unresolved := report.unresolved ++ (dangling? files options p r).toList }
      | some q => settled q (descend q report) := by
  unfold followReference target? dangling?
  split_ifs
  · simp
  · cases resolve files options p r.specifier with
    | none => rfl
    | some q =>
      cases descend q report with
      | mk report' e => cases e <;> rfl

/-- The references of a file may be followed one after the other. -/
theorem schedules_follows {descend : Visit} {depth : Nat}
    (hd : ∀ q report rest, Schedules files options ⟨.enter q (depth + 1) ::ₘ rest, report⟩
      ⟨rest, settled q (descend q report)⟩) (p : Path) (rest : Multiset Branch) :
    ∀ (rs : List Reference) (report : Report),
      Schedules files options ⟨(rs.map (Branch.follow p depth) : List Branch) + rest, report⟩
        ⟨rest, rs.foldl (followReference files options descend p) report⟩ := by
  intro rs
  induction rs with
  | nil => intro report; simp only [List.map_nil, Multiset.coe_nil, zero_add]; exact .refl
  | cons r rs ih =>
    intro report
    have hstep : Step files options
        ⟨.follow p depth r ::ₘ ((rs.map (Branch.follow p depth) : List Branch) + rest), report⟩ _ :=
      .run _ _ _
    rw [run_follow] at hstep
    rw [List.map_cons, ← Multiset.cons_coe, Multiset.cons_add, List.foldl_cons, followReference_eq]
    cases ht : target? files options p r with
    | none =>
      simp only [ht, Option.toList_none, List.map_nil, Multiset.coe_nil, zero_add] at hstep
      exact .head hstep (ih _)
    | some q =>
      simp only [ht, dangling?_of_target? ht, Option.toList_none, List.append_nil, Option.toList_some, List.map_cons,
        List.map_nil, Multiset.coe_singleton, Multiset.singleton_add] at hstep
      exact .head hstep ((hd q report _).trans (ih _))

/-- A visit is a run of its branch alone, with the others waiting. -/
theorem schedules_visitWith {descend : Visit} {depth : Nat} (hdepth : depth ≤ options.maxDepth.toNat)
    (hd : ∀ q report rest, Schedules files options ⟨.enter q (depth + 1) ::ₘ rest, report⟩
      ⟨rest, settled q (descend q report)⟩) (p : Path) (report : Report) (rest : Multiset Branch) :
    Schedules files options ⟨.enter p depth ::ₘ rest, report⟩
      ⟨rest, settled p (visitWith files options descend p report)⟩ := by
  have henter : Step files options ⟨.enter p depth ::ₘ rest, report⟩ _ := .run _ _ _
  unfold visitWith
  by_cases hc : (options.ignores p || report.dependencies.contains p) = true
  · rw [if_pos hc]
    rw [run_enter_old] at henter
    · simpa [settled] using Relation.ReflTransGen.single henter
    · rw [Bool.or_eq_true] at hc
      exact hc.imp_right .inr
  · rw [if_neg hc]
    simp only [Bool.or_eq_true, not_or, Bool.not_eq_true] at hc
    rw [run_enter_new hc.1 hdepth hc.2, Multiset.coe_singleton, Multiset.singleton_add] at henter
    have hread : Step files options ⟨.read p depth ::ₘ rest,
        { report with dependencies := report.dependencies.insert p }⟩ _ := .run _ _ _
    refine .head henter (.head hread ?_)
    rw [Branch.run]
    cases hs : files.source p with
    | error e => simp only [Multiset.coe_nil, zero_add, settled]; exact .refl
    | ok source => exact schedules_follows hd p rest (references source) _

/-- **Visiting one file after the other is one way to run the branches.** -/
theorem schedules_visit (further : Nat) : ∀ {depth : Nat}, depth + further = options.maxDepth.toNat →
    ∀ (p : Path) (report : Report) (rest : Multiset Branch),
      Schedules files options ⟨.enter p depth ::ₘ rest, report⟩
        ⟨rest, settled p (visit files options further p report)⟩ := by
  induction further with
  | zero =>
    intro depth hdepth
    refine schedules_visitWith (by omega) fun q report rest => ?_
    have hstep : Step files options ⟨.enter q (depth + 1) ::ₘ rest, report⟩ _ := .run _ _ _
    rw [run_enter_old (.inr (.inl (by omega))), Multiset.coe_nil, zero_add] at hstep
    exact .single hstep
  | succ further ih =>
    intro depth hdepth
    exact schedules_visitWith (by omega) fun q report rest => ih (by omega) q report rest

/-- A walk from a readable entry that is not ignored is a complete run. -/
theorem exists_walk_eq {entry p : Path} {source : String} (hp : entryPath files options entry = .ok p)
    (hs : files.source p = .ok source) :
    ∃ report, walk files options entry = .ok report ∧
      Schedules files options (.start p) ⟨0, report⟩ := by
  have hrun : Schedules files options (.start p) ⟨0, settled p (visit files options _ p {})⟩ :=
    schedules_visit options.maxDepth.toNat (Nat.zero_add _) p {} 0
  have hnone : (visit files options options.maxDepth.toNat p {}).2 = none := by
    cases options.maxDepth.toNat <;> unfold visit visitWith <;> split_ifs <;> simp [hs]
  unfold walk explore
  rw [hp]
  cases hv : visit files options options.maxDepth.toNat p {} with
  | mk report e =>
    rw [hv] at hrun hnone
    obtain rfl : e = none := hnone
    exact ⟨report, by simp only [hv], hrun⟩

end

end ModuleBundler
