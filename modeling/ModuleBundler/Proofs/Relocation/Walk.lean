import ModuleBundler.Proofs.Relocation.Project
import ModuleBundler.Proofs.Walk.Closure

/-!
# Walks through a project that is moved

The references of a file that stay in the project lead to moved files (`targets_moved`), so a walk through
the moved project meets the moved files in the same order (`meet_moved`). It is given up at the entry or not
at all, and a moved entry is given up for the same kind of reason (`explore_moved`).
-/

namespace ModuleBundler

/-- Files that were met in two places, one by one moved. -/
abbrev MovedMeetings (R₁ R₂ : Path) : List Meeting → List Meeting → Prop :=
  List.Forall₂ fun m n => Moved R₁ R₂ m.path n.path

section

variable {options : Options} {R₁ R₂ : Path} {s₁ s₂ : FileStore} (hs : SameProject options R₁ R₂ s₁ s₂)
  (hr₁ : s₁.EveryReference R₁ (StaysBelow R₁)) (hr₂ : s₂.EveryReference R₂ (StaysBelow R₂))

/-! ### References -/

/-- What is found first among related members is related. -/
theorem rel_find? {α β : Type} {R : α → β → Prop} {f : α → Bool} {g : β → Bool}
    (hfg : ∀ a b, R a b → f a = g b) {as : List α} {bs : List β} (h : List.Forall₂ R as bs) :
    Option.Rel R (as.find? f) (bs.find? g) := by
  induction h with
  | nil => exact .none
  | @cons a b as bs hab _ ih =>
    rw [List.find?_cons, List.find?_cons, hfg a b hab]
    cases g b with
    | true => exact .some hab
    | false => exact ih

include hs

/-- A reference that stays in the project leads to a moved file, or to none in both places. -/
theorem resolve_moved {p q : Path} {specifier : String} (h : Moved R₁ R₂ p q)
    (hp : StaysBelow R₁ p specifier) (hq : StaysBelow R₂ q specifier) :
    Option.Rel (Moved R₁ R₂) (resolve s₁.view (options.rootedAt R₁) p specifier)
      (resolve s₂.view (options.rootedAt R₂) q specifier) := by
  have hprobes := probes_moved hs.left hs.right (isExtension_of_validate hs.valid) h hp hq
  unfold resolve
  split
  · exact rel_find? (fun _ _ h => hs.files.isFile_moved h) hprobes
  · exact .none

include hr₁ hr₂

/-- **The references of a moved file** lead to moved files, in the same order. -/
theorem targets_moved {p q : Path} (h : Moved R₁ R₂ p q) :
    List.Forall₂ (Moved R₁ R₂) (targets s₁.view (options.rootedAt R₁) p)
      (targets s₂.view (options.rootedAt R₂) q) := by
  obtain ⟨parts, hbp, hbq⟩ := h.below
  unfold targets
  rcases eq_of_mapError_eq (hs.files.source_moved h) with ⟨source, hp, hq⟩ | ⟨_, _, hp, hq, -⟩
  · rw [hp, hq]
    have hsame : List.Forall₂ (fun r r' => r = r' ∧ r ∈ references source) (references source)
        (references source) := List.forall₂_same.mpr fun r hr => ⟨rfl, hr⟩
    refine List.rel_filterMap ?_ hsame
    rintro r _ ⟨rfl, hr⟩
    unfold target? Reference.isBare
    cases hpath : r.isPath with
    | false => exact .none
    | true =>
      exact resolve_moved hs h (hr₁ p h.left (isWithin_of_below? hbp) source hp r hr hpath)
        (hr₂ q h.right (isWithin_of_below? hbq) source hq r hr hpath)
  · rw [hp, hq]
    exact .nil

/-! ### Meetings -/

omit hr₁ hr₂ in
/-- A moved file is met again in both places, or for the first time in both. -/
theorem isMet_moved {met₁ met₂ : List Meeting} (hm : MovedMeetings R₁ R₂ met₁ met₂) {p q : Path}
    (h : Moved R₁ R₂ p q) : isMet met₁ p = isMet met₂ q := by
  unfold isMet
  induction hm with
  | nil => rfl
  | @cons m n _ _ hmn _ ih =>
    have hparts : decide (m.path.parts = p.parts) = decide (n.path.parts = q.parts) :=
      decide_eq_decide.mpr (hmn.parts_eq_iff hs.left hs.right h)
    rw [List.any_cons, List.any_cons, ih, hparts]

theorem meetWith_moved {descend₁ descend₂ : Path → List Meeting → List Meeting}
    (hd : ∀ p q met₁ met₂, Moved R₁ R₂ p q → MovedMeetings R₁ R₂ met₁ met₂ →
      MovedMeetings R₁ R₂ (descend₁ p met₁) (descend₂ q met₂))
    (depth : Nat) {p q : Path} (h : Moved R₁ R₂ p q) {met₁ met₂ : List Meeting}
    (hm : MovedMeetings R₁ R₂ met₁ met₂) :
    MovedMeetings R₁ R₂ (meetWith s₁.view (options.rootedAt R₁) descend₁ depth p met₁)
      (meetWith s₂.view (options.rootedAt R₂) descend₂ depth q met₂) := by
  have hi : (options.rootedAt R₁).ignores p = (options.rootedAt R₂).ignores q := hs.ignores_moved h
  unfold meetWith
  rw [hi, isMet_moved hs hm h]
  split
  · exact hm
  · refine List.rel_foldl (R := Moved R₁ R₂) ?_ (List.rel_append hm (.cons h .nil))
      (targets_moved hs hr₁ hr₂ h)
    exact fun met₁ met₂ hm p q h => hd p q met₁ met₂ h hm

/-- **A walk through the moved project meets the moved files**, in the same order. -/
theorem meet_moved (further : Nat) : ∀ (depth : Nat) (p q : Path) (met₁ met₂ : List Meeting),
    Moved R₁ R₂ p q → MovedMeetings R₁ R₂ met₁ met₂ →
      MovedMeetings R₁ R₂ (meet s₁.view (options.rootedAt R₁) further depth p met₁)
        (meet s₂.view (options.rootedAt R₂) further depth q met₂) := by
  induction further with
  | zero =>
    intro depth p q met₁ met₂ h hm
    exact meetWith_moved hs hr₁ hr₂ (fun _ _ _ _ _ hm => hm) depth h hm
  | succ further ih =>
    intro depth p q met₁ met₂ h hm
    exact meetWith_moved hs hr₁ hr₂ (fun p q met₁ met₂ h hm => ih (depth + 1) p q met₁ met₂ h hm) depth h hm

/-! ### Faults -/

omit hs hr₁ hr₂ in
/-- A visit is at fault when it is the first one of a file without a source, and not otherwise: what its
references lead to does not matter. -/
theorem fault_visitWith (files : Files) (options : Options) (descend : Visit) (p : Path) (report : Report) :
    (visitWith files options descend p report).2 =
      if options.ignores p || report.dependencies.contains p then none
      else match files.source p with
        | .error e => some (.ofSource p e)
        | .ok _ => none := by
  rw [visitWith]
  split
  · rfl
  · cases files.source p <;> rfl

omit hs hr₁ hr₂ in
theorem fault_visit (files : Files) (options : Options) (further : Nat) (p : Path) (report : Report) :
    (visit files options further p report).2 =
      if options.ignores p || report.dependencies.contains p then none
      else match files.source p with
        | .error e => some (.ofSource p e)
        | .ok _ => none := by
  cases further <;> exact fault_visitWith files options _ p report

/-- **A walk through the moved project** is given up for the same kind of reason, and what it finds is
moved. -/
theorem explore_moved {entry p q : Path} (hp : entryPath s₁.view (options.rootedAt R₁) entry = .ok p)
    (hq : entryPath s₂.view (options.rootedAt R₂) entry = .ok q) (h : Moved R₁ R₂ p q) :
    List.Forall₂ (Moved R₁ R₂)
        (explore s₁.view (options.rootedAt R₁) entry).1.dependencies.paths
        (explore s₂.view (options.rootedAt R₂) entry).1.dependencies.paths ∧
      (explore s₁.view (options.rootedAt R₁) entry).2.map WalkError.fault =
        (explore s₂.view (options.rootedAt R₂) entry).2.map WalkError.fault := by
  unfold explore
  rw [hp, hq]
  constructor
  · have hv₁ : Agrees (visit s₁.view (options.rootedAt R₁) options.maxDepth.toNat p {}).1
        (meetings s₁.view (options.rootedAt R₁) p) := agrees_visit _ 0 p {} [] ⟨rfl, rfl⟩
    have hv₂ : Agrees (visit s₂.view (options.rootedAt R₂) options.maxDepth.toNat q {}).1
        (meetings s₂.view (options.rootedAt R₂) q) := agrees_visit _ 0 q {} [] ⟨rfl, rfl⟩
    show List.Forall₂ _ (visit s₁.view (options.rootedAt R₁) options.maxDepth.toNat p {}).1.dependencies.paths
      (visit s₂.view (options.rootedAt R₂) options.maxDepth.toNat q {}).1.dependencies.paths
    rw [hv₁.paths, hv₂.paths, List.forall₂_map_left_iff, List.forall₂_map_right_iff]
    exact meet_moved hs hr₁ hr₂ _ 0 p q [] [] h .nil
  · have hi : (options.rootedAt R₁).ignores p = (options.rootedAt R₂).ignores q := hs.ignores_moved h
    simp only [fault_visit]
    rw [hi]
    have hempty : ∀ r : Path, DependencySet.empty.contains r = false := fun _ => rfl
    split
    next hc => rw [if_pos (by simpa [hempty] using hc)]
    next hc =>
      rw [if_neg (by simpa [hempty] using hc)]
      rcases eq_of_mapError_eq (hs.files.source_moved h) with ⟨_, hp, hq⟩ | ⟨_, _, hp, hq, hf⟩
      · rw [hp, hq]
      · rw [hp, hq]
        simp [hf]

end

end ModuleBundler
