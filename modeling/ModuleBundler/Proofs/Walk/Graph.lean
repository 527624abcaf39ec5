import ModuleBundler.Proofs.Path.Join
import ModuleBundler.Walk

/-!
# The graph that a walk goes through

A file is a child of another one when a path reference in the text of the other one leads to it and no
ignore pattern occurs in it (`IsChild`). A file without a text has no children. Everything a walk finds
is reached from the entry by a chain of such steps (`Chain`).

What the children of a file are is a matter of the place that the file's path names, and not of the
spelling of that path (`isChild_congr`).
-/

namespace ModuleBundler

/-! ### Children -/

section

variable (files : Files) (options : Options)

/-- `IsChild p q`: the file `p` has a text, a path reference in it leads to `q`, and `q` is not ignored. -/
def IsChild (p q : Path) : Prop :=
  ∃ source, files.source p = .ok source ∧ ∃ r ∈ references source,
    r.isPath = true ∧ resolve files options p r.specifier = some q ∧ options.ignores q = false

/-- The file that a reference in `p` leads to, if it is a path and leads to one. -/
def target? (p : Path) (r : Reference) : Option Path :=
  if r.isBare then none else resolve files options p r.specifier

/-- The files that the references of `p` lead to, in the order of the references; ignored ones too. -/
def targets (p : Path) : List Path :=
  match files.source p with
  | .error _ => []
  | .ok source => (references source).filterMap (target? files options p)

variable {files options}

theorem target?_eq_some_iff {p q : Path} {r : Reference} :
    target? files options p r = some q ↔ r.isPath = true ∧ resolve files options p r.specifier = some q := by
  unfold target? Reference.isBare
  cases r.isPath <;> simp

/-- The children of a file are the files its references lead to, but for the ignored ones. -/
theorem isChild_iff_mem_targets {p q : Path} :
    IsChild files options p q ↔ q ∈ targets files options p ∧ options.ignores q = false := by
  unfold IsChild targets
  cases files.source p with
  | error e => simp
  | ok source =>
    simp only [List.mem_filterMap, target?_eq_some_iff]
    constructor
    · rintro ⟨_, hs, r, hr, hp, hq, hi⟩
      obtain rfl := Except.ok.inj hs
      exact ⟨⟨r, hr, hp, hq⟩, hi⟩
    · rintro ⟨⟨r, hr, hp, hq⟩, hi⟩
      exact ⟨source, rfl, r, hr, hp, hq, hi⟩

theorem resolve_congr {p p' : Path} (h : p.parts = p'.parts) (specifier : String) :
    resolve files options p specifier = resolve files options p' specifier := by
  unfold resolve candidatePath
  rw [Path.parent?_congr h]

end

/-- Two spellings of one place have the same children in memory. -/
theorem isChild_congr (store : FileStore) {options : Options} {p p' q : Path} (h : p.parts = p'.parts)
    (hq : IsChild store.view options p q) : IsChild store.view options p' q := by
  obtain ⟨source, hs, r, hr, hp, hres, hi⟩ := hq
  exact ⟨source, by rw [← FileStore.source_view_congr store h, hs], r, hr, hp,
    by rw [← resolve_congr h, hres], hi⟩

/-! ### Chains -/

/-- `Chain R n p q`: `n` steps of `R` lead from `p` to `q`. -/
inductive Chain (R : Path → Path → Prop) : Nat → Path → Path → Prop where
  /-- No step leads from a file to itself. -/
  | here (p : Path) : Chain R 0 p p
  /-- One step more at the end. -/
  | step {n : Nat} {p q r : Path} : Chain R n p q → R q r → Chain R (n + 1) p r

theorem Chain.mono {R S : Path → Path → Prop} (h : ∀ p q, R p q → S p q) {n : Nat} {p q : Path}
    (hc : Chain R n p q) : Chain S n p q := by
  induction hc with
  | here p => exact .here p
  | step _ hr ih => exact ih.step (h _ _ hr)

/-- What the first file of a chain has, and what a step leaves as it is, the last file has. -/
theorem Chain.induct {R : Path → Path → Prop} {P : Path → Prop} {n : Nat} {p q : Path}
    (hc : Chain R n p q) (hp : P p) (h : ∀ p q, P p → R p q → P q) : P q := by
  induction hc with
  | here p => exact hp
  | step _ hr ih => exact h _ _ (ih hp) hr

end ModuleBundler
