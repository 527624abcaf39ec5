import ModuleBundler.Proofs.Walk.Meeting
import Mathlib.Data.List.Infix

/-!
# What a walk keeps from step to step

A walk is a run of steps, each of which adds one child of a file that was met before the limit
(`Discovers`). What a step keeps is gathered in `Explored`; a run keeps it by induction
(`explored_meetings`).

Steps alone do not say that a walk goes on as long as it can. That is the second half: a file that was
met before the limit is left only when all its children were met (`meet_closed`).
-/

namespace ModuleBundler

section

variable (files : Files) (options : Options)

/-! ### Steps -/

/-- One step of a walk: a child of a file that was met before the limit is met for the first time. -/
inductive Discovers (limit : Nat) : List Meeting → List Meeting → Prop where
  /-- The child lies one reference further away than the file. -/
  | child {met : List Meeting} {m : Meeting} {q : Path} : m ∈ met → m.depth < limit →
      IsChild files options m.path q → isMet met q = false →
      Discovers limit met (met ++ [⟨q, m.depth + 1⟩])

/-- Any number of steps of a walk. -/
abbrev Explores (limit : Nat) : List Meeting → List Meeting → Prop :=
  Relation.ReflTransGen (Discovers files options limit)

variable {files options}

theorem Explores.extends {limit : Nat} {met met' : List Meeting}
    (h : Explores files options limit met met') : met <+: met' := by
  induction h with
  | refl => exact List.prefix_rfl
  | tail _ hstep ih =>
    cases hstep with
    | child => exact ih.trans (List.prefix_append _ _)

theorem explores_foldl {descend : Path → List Meeting → List Meeting} {limit : Nat} {m : Meeting}
    (hd : ∀ q met, m ∈ met → q ∈ targets files options m.path →
      Explores files options limit met (descend q met)) :
    ∀ (qs : List Path), (∀ q ∈ qs, q ∈ targets files options m.path) → ∀ met, m ∈ met →
      Explores files options limit met (qs.foldl (fun met q => descend q met) met) := by
  intro qs
  induction qs with
  | nil => intro _ met _; exact .refl
  | cons q qs ih =>
    intro hqs met hm
    have h := hd q met hm (hqs q List.mem_cons_self)
    exact h.trans (ih (fun q hq => hqs q (List.mem_cons_of_mem _ hq)) _ (h.extends.subset hm))

/-- Meeting a file that a reference of `m` leads to takes steps only. -/
theorem meet_explores (further : Nat) : ∀ {m : Meeting} {q : Path} {met : List Meeting}, m ∈ met →
    q ∈ targets files options m.path →
      Explores files options (m.depth + 1 + further) met
        (meet files options further (m.depth + 1) q met) := by
  induction further with
  | zero =>
    intro m q met hm hq
    unfold meet meetWith
    by_cases hc : (options.ignores q || isMet met q) = true
    · rw [if_pos hc]
    rw [if_neg hc, List.foldl_fixed']
    · simp only [Bool.or_eq_true, not_or, Bool.not_eq_true] at hc
      exact .single (.child hm (by omega) (isChild_iff_mem_targets.mpr ⟨hq, hc.1⟩) hc.2)
    · exact fun _ => rfl
  | succ further ih =>
    intro m q met hm hq
    unfold meet meetWith
    by_cases hc : (options.ignores q || isMet met q) = true
    · rw [if_pos hc]
    rw [if_neg hc]
    simp only [Bool.or_eq_true, not_or, Bool.not_eq_true] at hc
    have hstep : Discovers files options (m.depth + 1 + (further + 1)) met (met ++ [⟨q, m.depth + 1⟩]) :=
      .child hm (by omega) (isChild_iff_mem_targets.mpr ⟨hq, hc.1⟩) hc.2
    refine .head hstep (explores_foldl (m := ⟨q, m.depth + 1⟩) (fun c met hq' hc' => ?_) _
      (fun c h => h) _ (by simp))
    have h := ih hq' hc'
    rwa [show m.depth + 1 + 1 + further = m.depth + 1 + (further + 1) by omega] at h

/-- A walk from an entry that is not ignored is a run of steps from the entry alone. -/
theorem meetings_explores {entry : Path} (h : options.ignores entry = false) :
    Explores files options options.maxDepth.toNat [⟨entry, 0⟩] (meetings files options entry) := by
  have hc : ¬ (options.ignores entry || isMet [] entry) = true := by simp [h, isMet]
  unfold meetings
  cases hd : options.maxDepth.toNat with
  | zero =>
    unfold meet meetWith
    rw [if_neg hc, List.foldl_fixed']
    · exact .refl
    · exact fun _ => rfl
  | succ further =>
    unfold meet meetWith
    rw [if_neg hc]
    refine explores_foldl (m := ⟨entry, 0⟩) (fun q met hm hq => ?_) _ (fun q h => h) _ (by simp)
    have h := meet_explores further hm hq
    rwa [show 0 + 1 + further = further + 1 by omega] at h

/-! ### What steps keep -/

variable (files options)

/-- A step to a child, from a file that was met before the limit. -/
def Leaves (limit : Nat) (met : List Meeting) (p q : Path) : Prop :=
  IsChild files options p q ∧ ∃ m ∈ met, m.path.parts = p.parts ∧ m.depth < limit

/-- What is true of the files that a walk from `entry` has met. -/
structure Explored (entry : Path) (limit : Nat) (met : List Meeting) : Prop where
  /-- The entry was met first. -/
  first : met.head? = some ⟨entry, 0⟩
  /-- Every other file is a child of an earlier one. -/
  grounded : ∀ before m after, met = before ++ m :: after → before ≠ [] →
    ∃ m₀ ∈ before, m.depth = m₀.depth + 1 ∧ IsChild files options m₀.path m.path
  /-- No file lies further away than the limit. -/
  within : ∀ m ∈ met, m.depth ≤ limit
  /-- A file that lies `n` references away was met after `n` other ones. -/
  counted : ∀ m ∈ met, m.depth < met.length
  /-- The route to a file goes through files that were met before the limit. -/
  route : ∀ m ∈ met, Chain (Leaves files options limit met) m.depth entry m.path

variable {files options}

theorem Leaves.mono {limit : Nat} {met met' : List Meeting} (h : met <+: met') {p q : Path}
    (hl : Leaves files options limit met p q) : Leaves files options limit met' p q := by
  obtain ⟨hc, m, hm, he⟩ := hl
  exact ⟨hc, m, h.subset hm, he⟩

theorem explored_singleton (entry : Path) (limit : Nat) :
    Explored files options entry limit [⟨entry, 0⟩] where
  first := rfl
  grounded := by
    intro before m after he hne
    cases before with
    | nil => exact absurd rfl hne
    | cons m₀ before => simp at he
  within := by simp
  counted := by simp
  route := by
    intro m hm
    rw [List.mem_singleton] at hm
    subst hm
    exact .here entry

/-- A step keeps what is true of the files that were met. -/
theorem Explored.discovers {entry : Path} {limit : Nat} {met met' : List Meeting}
    (h : Explored files options entry limit met) (hstep : Discovers files options limit met met') :
    Explored files options entry limit met' := by
  cases hstep with
  | @child m q hm hd hc hq =>
    have hroute : ∀ m' ∈ met, Chain (Leaves files options limit (met ++ [⟨q, m.depth + 1⟩])) m'.depth
        entry m'.path := fun m' hm' =>
      (h.route m' hm').mono fun _ _ => Leaves.mono (List.prefix_append _ _)
    refine ⟨?_, ?_, ?_, ?_, ?_⟩
    · rw [List.head?_append, h.first]
      rfl
    · intro before m' after he hne
      rcases List.append_eq_append_iff.mp he with ⟨as, rfl, has⟩ | ⟨bs, rfl, hbs⟩
      · -- the file comes with this step
        cases as with
        | nil =>
          simp only [List.nil_append, List.cons.injEq] at has
          obtain ⟨rfl, -⟩ := has
          exact ⟨m, by simpa using hm, rfl, hc⟩
        | cons a as => simp at has
      · cases bs with
        | nil =>
          simp only [List.nil_append, List.cons.injEq] at hbs
          obtain ⟨rfl, -⟩ := hbs
          exact ⟨m, by simpa using hm, rfl, hc⟩
        | cons b bs =>
          simp only [List.cons_append, List.cons.injEq] at hbs
          obtain ⟨rfl, -⟩ := hbs
          exact h.grounded before m' bs rfl hne
    · intro m' hm'
      rcases List.mem_append.mp hm' with hm' | hm'
      · exact h.within m' hm'
      · rw [List.mem_singleton] at hm'
        subst hm'
        exact hd
    · intro m' hm'
      rw [List.length_append, List.length_singleton]
      rcases List.mem_append.mp hm' with hm' | hm'
      · exact Nat.lt_succ_of_lt (h.counted m' hm')
      · rw [List.mem_singleton] at hm'
        subst hm'
        exact Nat.succ_lt_succ (h.counted m hm)
    · intro m' hm'
      rcases List.mem_append.mp hm' with hm' | hm'
      · exact hroute m' hm'
      · rw [List.mem_singleton] at hm'
        subst hm'
        exact (hroute m hm).step ⟨hc, m, List.mem_append_left _ hm, rfl, hd⟩

/-- Steps keep what is true of the files that were met. -/
theorem Explored.explores {entry : Path} {limit : Nat} {met met' : List Meeting}
    (h : Explored files options entry limit met) (hrun : Explores files options limit met met') :
    Explored files options entry limit met' := by
  induction hrun with
  | refl => exact h
  | tail _ hstep ih => exact ih.discovers hstep

/-- **What is true of every walk**, from an entry that is not ignored. -/
theorem explored_meetings {entry : Path} (h : options.ignores entry = false) :
    Explored files options entry options.maxDepth.toNat (meetings files options entry) :=
  (explored_singleton entry _).explores (meetings_explores h)

/-! ### What is left closed -/

/-- All children of a file were met. -/
def Closed (files : Files) (options : Options) (met : List Meeting) (p : Path) : Prop :=
  ∀ q, IsChild files options p q → isMet met q = true

theorem Closed.mono {met met' : List Meeting} (h : met <+: met') {p : Path}
    (hc : Closed files options met p) : Closed files options met' p :=
  fun q hq => isMet_mono h (hc q hq)

theorem foldl_extends {descend : Path → List Meeting → List Meeting}
    (hd : ∀ q met, met <+: descend q met) (qs : List Path) :
    ∀ met, met <+: qs.foldl (fun met q => descend q met) met := by
  induction qs with
  | nil => intro met; exact List.prefix_rfl
  | cons q qs ih => intro met; exact (hd q met).trans (ih _)

theorem meetWith_extends {descend : Path → List Meeting → List Meeting}
    (hd : ∀ q met, met <+: descend q met) (depth : Nat) (p : Path) (met : List Meeting) :
    met <+: meetWith files options descend depth p met := by
  unfold meetWith
  split
  · exact List.prefix_rfl
  · exact (List.prefix_append _ _).trans (foldl_extends hd _ _)

theorem meet_extends (further : Nat) : ∀ (depth : Nat) (p : Path) (met : List Meeting),
    met <+: meet files options further depth p met := by
  induction further with
  | zero => exact fun depth p met => meetWith_extends (fun _ _ => List.prefix_rfl) depth p met
  | succ further ih => exact fun depth p met => meetWith_extends (fun q met => ih _ q met) depth p met

theorem isMet_meetWith {descend : Path → List Meeting → List Meeting}
    (hd : ∀ q met, met <+: descend q met) (depth : Nat) {p : Path} (h : options.ignores p = false)
    (met : List Meeting) : isMet (meetWith files options descend depth p met) p = true := by
  unfold meetWith
  split
  · next hc => simpa [h] using hc
  · refine isMet_mono (foldl_extends hd _ _) ?_
    simp [isMet]

/-- A file that is not ignored is met when it is visited. -/
theorem isMet_meet (further depth : Nat) {p : Path} (h : options.ignores p = false) (met : List Meeting) :
    isMet (meet files options further depth p met) p = true := by
  cases further with
  | zero => exact isMet_meetWith (fun _ _ => List.prefix_rfl) depth h met
  | succ further => exact isMet_meetWith (fun q met => meet_extends further _ q met) depth h met

/-- Visits one after the other meet every file that is not ignored, and leave closed what each of them
leaves closed. -/
theorem foldl_closed {further depth : Nat}
    (hd : ∀ (q : Path) (met : List Meeting), ∀ m ∈ meet files options further depth q met,
      m ∈ met ∨ m.depth = depth + further ∨
        Closed files options (meet files options further depth q met) m.path) (qs : List Path) :
    ∀ met : List Meeting,
      (∀ q ∈ qs, options.ignores q = false →
        isMet (qs.foldl (fun met q => meet files options further depth q met) met) q = true) ∧
      ∀ m ∈ qs.foldl (fun met q => meet files options further depth q met) met,
        m ∈ met ∨ m.depth = depth + further ∨ Closed files options
          (qs.foldl (fun met q => meet files options further depth q met) met) m.path := by
  induction qs with
  | nil => exact fun met => ⟨fun q hq => absurd hq List.not_mem_nil, fun m hm => Or.inl hm⟩
  | cons q qs ih =>
    intro met
    rw [List.foldl_cons]
    obtain ⟨hmet, hclosed⟩ := ih (meet files options further depth q met)
    have hext : meet files options further depth q met <+:
        qs.foldl (fun met q => meet files options further depth q met)
          (meet files options further depth q met) :=
      foldl_extends (fun q met => meet_extends further depth q met) qs _
    constructor
    · intro q' hq' hi
      rcases List.mem_cons.mp hq' with rfl | hq'
      · exact isMet_mono hext (isMet_meet further depth hi met)
      · exact hmet q' hq' hi
    · intro m hm
      rcases hclosed m hm with hm | hm | hm
      · rcases hd q met m hm with hm | hm | hm
        · exact Or.inl hm
        · exact Or.inr (Or.inl hm)
        · exact Or.inr (Or.inr (hm.mono hext))
      · exact Or.inr (Or.inl hm)
      · exact Or.inr (Or.inr hm)

/-- Every file that a visit adds is left closed, or was met when no reference was left. -/
theorem meet_closed (further : Nat) : ∀ (depth : Nat) (p : Path) (met : List Meeting),
    ∀ m ∈ meet files options further depth p met,
      m ∈ met ∨ m.depth = depth + further ∨
        Closed files options (meet files options further depth p met) m.path := by
  induction further with
  | zero =>
    intro depth p met m hm
    unfold meet meetWith at hm
    split at hm
    · exact Or.inl hm
    · rw [List.foldl_fixed' (fun _ => rfl), List.mem_append, List.mem_singleton] at hm
      rcases hm with hm | rfl
      · exact Or.inl hm
      · exact Or.inr (Or.inl rfl)
  | succ further ih =>
    intro depth p met m hm
    unfold meet meetWith at hm ⊢
    split at hm
    · exact Or.inl hm
    · next hc =>
      rw [if_neg hc]
      obtain ⟨hmet, hclosed⟩ := foldl_closed (ih (depth + 1)) (targets files options p) (met ++ [⟨p, depth⟩])
      rcases hclosed m hm with hm | hm | hm
      · rw [List.mem_append, List.mem_singleton] at hm
        rcases hm with hm | rfl
        · exact Or.inl hm
        · refine Or.inr (Or.inr fun q hq => ?_)
          obtain ⟨hq, hi⟩ := isChild_iff_mem_targets.mp hq
          exact hmet q hq hi
      · exact Or.inr (Or.inl (by omega))
      · exact Or.inr (Or.inr hm)

/-- A file that a walk met before the limit has all its children among the files that it met. -/
theorem closed_meetings {entry : Path} {m : Meeting} (hm : m ∈ meetings files options entry)
    (hd : m.depth < options.maxDepth.toNat) :
    Closed files options (meetings files options entry) m.path := by
  rcases meet_closed options.maxDepth.toNat 0 entry [] m hm with h | h | h
  · exact absurd h List.not_mem_nil
  · omega
  · exact h

end

end ModuleBundler
