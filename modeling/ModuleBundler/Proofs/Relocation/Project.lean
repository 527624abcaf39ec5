import ModuleBundler.Bundle.Error
import ModuleBundler.Proofs.Files.Lookup
import ModuleBundler.Proofs.Relocation.Resolve
import ModuleBundler.Proofs.Table
import ModuleBundler.Proofs.Text.Search
import ModuleBundler.Reference.Scan

/-!
# One project in two places

Two stores hold one project when they have the same files, and the same marks of files that cannot be read,
below the two roots (`SameFiles`). What a store answers about a path is then what the other one answers about
the moved path; a fault that names the path is of the same kind (`source_moved`). Files that are put in at
moved paths, one after the other, leave the stores with the same files (`SameFiles.insert`).
-/

namespace ModuleBundler

open ModuleBundler.Path

/-! ### Kinds of faults -/

/-- What kind of fault a question about files has, whatever it tells about the path. -/
inductive FileFault where
  | notFound
  | io
  | other
  deriving DecidableEq, Repr

/-- What kind of fault the source of a module has. -/
inductive SourceFault where
  | unreadable (cause : FileFault)
  | notText
  deriving DecidableEq, Repr

/-- What kind of fault a build has: what went wrong, whatever the paths that tell about it. -/
inductive BuildFault where
  | noDependencies
  | entry (cause : SourceFault)
  | noWorkingDirectory (cause : FileFault)
  | module (cause : SourceFault)
  | noRoot (cause : FileFault)
  deriving DecidableEq, Repr

/-- The kind of a fault. -/
def FileError.fault : FileError → FileFault
  | .notFound _ => .notFound
  | .io _ => .io
  | .other _ => .other

/-- The kind of a fault. -/
def SourceError.fault : SourceError → SourceFault
  | .unreadable cause => .unreadable cause.fault
  | .notText => .notText

/-- The kind of a fault. -/
def WalkError.fault : WalkError → BuildFault
  | .unreadable _ cause => .entry (.unreadable cause.fault)
  | .notText _ => .entry .notText
  | .noWorkingDirectory cause => .noWorkingDirectory cause.fault

/-- The kind of a fault: that of the innermost one. -/
def BundleError.fault : BundleError → BuildFault
  | .noDependencies _ => .noDependencies
  | .walk cause => cause.fault
  | .moduleUnreadable _ cause => .module (.unreadable cause.fault)
  | .moduleNotText _ => .module .notText
  | .noRoot cause => .noRoot cause.fault
  | .generate _ cause => cause.fault

@[simp] theorem WalkError.fault_ofSource (p : Path) (e : SourceError) :
    (ofSource p e).fault = .entry e.fault := by
  cases e <;> rfl

@[simp] theorem BundleError.fault_ofSource (p : Path) (e : SourceError) :
    (ofSource p e).fault = .module e.fault := by
  cases e <;> rfl

theorem BundleError.fault_rootCause (e : BundleError) : e.rootCause.fault = e.fault := by
  induction e with
  | generate _ _ ih => exact ih
  | _ => rfl

/-- Two answers that are the same up to the kind of a fault are one value, or two faults of one kind. -/
theorem eq_of_mapError_eq {α ε δ κ : Type} {x : Except ε α} {y : Except δ α} {f : ε → κ} {g : δ → κ}
    (h : x.mapError f = y.mapError g) :
    (∃ a, x = .ok a ∧ y = .ok a) ∨ ∃ e d, x = .error e ∧ y = .error d ∧ f e = g d := by
  cases x <;> cases y <;> simp_all [Except.mapError]

/-! ### The same files -/

/-- The same files below two roots: what they hold, and whether they can be read. -/
structure SameFiles (R₁ R₂ : Path) (s₁ s₂ : FileStore) : Prop where
  files : ∀ p q, Moved R₁ R₂ p q → s₁.files.get? p = s₂.files.get? q
  unreadable : ∀ p q, Moved R₁ R₂ p q → (p ∈ s₁.unreadable ↔ q ∈ s₂.unreadable)

namespace SameFiles

variable {R₁ R₂ p q : Path} {s₁ s₂ : FileStore}

theorem isFile_moved (hs : SameFiles R₁ R₂ s₁ s₂) (h : Moved R₁ R₂ p q) :
    s₁.view.isFile p = s₂.view.isFile q := by
  show s₁.isFile p = s₂.isFile q
  rw [s₁.isFile_of_isPlace h.left, s₂.isFile_of_isPlace h.right, hs.files p q h]

/-- **Moved files have the same text**, or they have none for the same kind of reason. -/
theorem source_moved (hs : SameFiles R₁ R₂ s₁ s₂) (h : Moved R₁ R₂ p q) :
    (s₁.view.source p).mapError SourceError.fault = (s₂.view.source q).mapError SourceError.fault := by
  have hu : s₁.unreadable.contains p = s₂.unreadable.contains q := by
    simpa using hs.unreadable p q h
  unfold Files.source
  simp only [FileStore.view]
  rw [s₁.contentAt_of_isPlace h.left, s₂.contentAt_of_isPlace h.right, hu, hs.files p q h]
  cases s₂.unreadable.contains q with
  | true => rfl
  | false =>
    cases s₂.files.get? q with
    | none => rfl
    | some content => cases String.fromUTF8? content <;> rfl

/-! ### Putting files in -/

theorem empty (R₁ R₂ d₁ d₂ : Path) : SameFiles R₁ R₂ (.empty d₁) (.empty d₂) :=
  ⟨fun _ _ _ => rfl, fun _ _ _ => by simp [FileStore.empty]⟩

variable (h₁ : R₁.IsPlace) (h₂ : R₂.IsPlace)

include h₁ h₂

theorem insert (hs : SameFiles R₁ R₂ s₁ s₂) (h : Moved R₁ R₂ p q) (content : ByteArray) :
    SameFiles R₁ R₂ (s₁.insert p content) (s₂.insert q content) := by
  constructor
  · intro p' q' h'
    simp only [FileStore.insert]
    rw [s₁.locate_of_isPlace h.left, s₂.locate_of_isPlace h.right, Table.get?_put, Table.get?_put,
      hs.files p' q' h']
    exact if_congr (h.eq_iff h₁ h₂ h') rfl rfl
  · intro p' q' h'
    simp only [FileStore.insert, List.mem_filter, decide_eq_true_eq]
    rw [s₁.locate_of_isPlace h.left, s₂.locate_of_isPlace h.right]
    exact and_congr (hs.unreadable p' q' h') (not_congr (h'.eq_iff h₁ h₂ h))

theorem insertUnreadable (hs : SameFiles R₁ R₂ s₁ s₂) (h : Moved R₁ R₂ p q) :
    SameFiles R₁ R₂ (s₁.insertUnreadable p) (s₂.insertUnreadable q) := by
  have hmem : ∀ (s : FileStore) (p p' : Path), p' ∈ (if s.unreadable.contains p then s.unreadable
      else p :: s.unreadable) ↔ p' = p ∨ p' ∈ s.unreadable := by
    intro s p p'
    by_cases hc : p ∈ s.unreadable
    · rw [if_pos (by simpa using hc)]
      exact ⟨.inr, fun h => h.elim (fun e => e ▸ hc) id⟩
    · rw [if_neg (by simpa using hc), List.mem_cons]
  constructor
  · intro p' q' h'
    simp only [FileStore.insertUnreadable]
    rw [s₁.locate_of_isPlace h.left, s₂.locate_of_isPlace h.right, Table.get?_put, Table.get?_put,
      hs.files p' q' h']
    exact if_congr (h.eq_iff h₁ h₂ h') rfl rfl
  · intro p' q' h'
    simp only [FileStore.insertUnreadable]
    rw [s₁.locate_of_isPlace h.left, s₂.locate_of_isPlace h.right, hmem, hmem]
    exact or_congr (h'.eq_iff h₁ h₂ h) (hs.unreadable p' q' h')

end SameFiles

/-- A store with these files, whose names are seen from `root`. -/
def projectAt (root : Path) (files : List (String × String)) : FileStore :=
  files.foldl (fun store file => store.insert (root.join ⟨file.1⟩).clean file.2.toUTF8) (.empty root)

/-- The same list of files gives the same files below any root. -/
theorem sameFiles_projectAt {R₁ R₂ : Path} (h₁ : R₁.IsPlace) (h₂ : R₂.IsPlace) {files : List (String × String)}
    (h : ∀ file ∈ files, (⟨file.1⟩ : Path).isAbsolute = false ∧ ¬ (⟨file.1⟩ : Path).Climbs) :
    SameFiles R₁ R₂ (projectAt R₁ files) (projectAt R₂ files) := by
  unfold projectAt
  have hempty := SameFiles.empty R₁ R₂ R₁ R₂
  generalize FileStore.empty R₁ = s₁ at hempty ⊢
  generalize FileStore.empty R₂ = s₂ at hempty ⊢
  induction files generalizing s₁ s₂ with
  | nil => exact hempty
  | cons file files ih =>
    obtain ⟨⟨hrel, hc⟩, hrest⟩ := List.forall_mem_cons.mp h
    exact ih hrest _ _ (hempty.insert h₁ h₂ (join_moved h₁ h₂ hrel hc) _)

/-! ### Projects -/

/-- The options for a project at `root`. -/
def Options.rootedAt (options : Options) (root : Path) : Options := { options with root := some root }

/-- One project in two places: the same files below two clean absolute roots, for options that passed their
check, have no extension with the place of the root in it, and have ignore patterns that occur in a path if
and only if they occur in the moved path. -/
structure SameProject (options : Options) (R₁ R₂ : Path) (s₁ s₂ : FileStore) : Prop where
  left : R₁.IsPlace
  right : R₂.IsPlace
  files : SameFiles R₁ R₂ s₁ s₂
  valid : options.validate = .ok ()
  extensions : ∀ ext ∈ options.extensions, Text.occursIn "__ROOT__".toList ext.toList = false
  patterns : ∀ pattern ∈ options.ignorePatterns, ∀ p q, Moved R₁ R₂ p q →
    Text.occursIn pattern.toList p.text.toList = Text.occursIn pattern.toList q.text.toList

/-- Whether every path reference in the files at a root and below it has a property, which may depend on the
file that the reference stands in. -/
def FileStore.EveryReference (store : FileStore) (root : Path) (P : Path → String → Prop) : Prop :=
  ∀ p, p.IsPlace → p.isWithin root = true → ∀ source, store.view.source p = .ok source →
    ∀ r ∈ references source, r.isPath = true → P p r.specifier

/-- It is enough to look at the files that are there. -/
theorem FileStore.everyReference_of_files {store : FileStore} {P : Path → String → Prop}
    (h : ∀ file ∈ store.files, ∀ source ∈ String.fromUTF8? file.2, ∀ r ∈ references source,
      r.isPath = true → P file.1 r.specifier) (root : Path) : store.EveryReference root P := by
  intro p hp _ source hsource r hr hpath
  simp only [Files.source, view, store.contentAt_of_isPlace hp] at hsource
  split_ifs at hsource with hu
  cases hg : store.files.get? p with
  | none => simp [hg] at hsource
  | some content =>
    simp only [hg] at hsource
    cases ht : String.fromUTF8? content with
    | none => simp [ht] at hsource
    | some text =>
      simp only [ht, Except.ok.injEq] at hsource
      exact h _ (Table.mem_of_get?_eq_some hg) source (by rw [ht, hsource]; rfl) r hr hpath

/-- Options that passed their check have proper extensions only. -/
theorem isExtension_of_validate {options : Options} (h : options.validate = .ok ()) :
    ∀ ext ∈ options.extensions, isExtension ext = true := by
  intro ext hm
  cases hf : options.extensions.find? fun ext => !isExtension ext with
  | some bad =>
    have hne : options.extensions.isEmpty = false :=
      List.isEmpty_eq_false_iff.mpr (List.ne_nil_of_mem (List.mem_of_find?_eq_some hf))
    simp [Options.validate, Options.fault?, hne, hf] at h
  | none => simpa using List.find?_eq_none.mp hf ext hm

theorem SameProject.ignores_moved {options : Options} {R₁ R₂ p q : Path} {s₁ s₂ : FileStore}
    (hs : SameProject options R₁ R₂ s₁ s₂) (h : Moved R₁ R₂ p q) : options.ignores p = options.ignores q := by
  unfold Options.ignores
  rw [Bool.eq_iff_iff, List.any_eq_true, List.any_eq_true]
  refine exists_congr fun pattern => and_congr_right fun hm => ?_
  rw [hs.patterns pattern hm p q h]

/-! ### Ignore patterns -/

/-- A pattern without slashes stands in a path when it stands in one of its names. -/
theorem occursIn_along {pattern : List Char} (hslash : '/' ∉ pattern) (hne : pattern ≠ []) (ns : List String) :
    Text.occursIn pattern (along ns).text.toList = ns.any fun s => Text.occursIn pattern s.toList := by
  have hnil : Text.occursIn pattern [] = false := by simpa [Text.occursIn] using hne
  rw [toList_along, Text.occursIn_cons hslash hne]
  induction ns with
  | nil => exact hnil
  | cons s ns ih =>
    by_cases hns : ns = []
    · subst hns
      simp [spellParts, Part.text]
    · rw [List.map_cons, spellParts_names_cons s hns, Text.occursIn_append_cons hslash hne, ih, List.any_cons]

/-- A pattern without slashes that stands in both roots or in neither of them stands in moved paths alike. -/
theorem occursIn_moved {R₁ R₂ p q : Path} (h₁ : R₁.IsPlace) (h₂ : R₂.IsPlace) {pattern : List Char}
    (hslash : '/' ∉ pattern) (hne : pattern ≠ [])
    (hroots : Text.occursIn pattern R₁.text.toList = Text.occursIn pattern R₂.text.toList)
    (h : Moved R₁ R₂ p q) :
    Text.occursIn pattern p.text.toList = Text.occursIn pattern q.text.toList := by
  obtain ⟨rs₁, hr₁, rfl⟩ := isPlace_iff.mp h₁
  obtain ⟨rs₂, hr₂, rfl⟩ := isPlace_iff.mp h₂
  obtain ⟨ns, hn, rfl, rfl⟩ := (moved_iff hr₁ hr₂).mp h
  rw [occursIn_along hslash hne, occursIn_along hslash hne] at hroots ⊢
  rw [List.any_append, List.any_append, hroots]

/-- The same list of files is one project below any two roots, for proper options whose patterns hold no
slashes and stand in both roots or in neither of them. -/
theorem sameProject_projectAt {options : Options} {R₁ R₂ : Path} (h₁ : R₁.IsPlace) (h₂ : R₂.IsPlace)
    {files : List (String × String)}
    (hf : ∀ file ∈ files, (⟨file.1⟩ : Path).isAbsolute = false ∧ ¬ (⟨file.1⟩ : Path).Climbs)
    (hv : options.validate = .ok ())
    (he : ∀ ext ∈ options.extensions, Text.occursIn "__ROOT__".toList ext.toList = false)
    (hp : ∀ pattern ∈ options.ignorePatterns, '/' ∉ pattern.toList ∧ pattern.toList ≠ [] ∧
      Text.occursIn pattern.toList R₁.text.toList = Text.occursIn pattern.toList R₂.text.toList) :
    SameProject options R₁ R₂ (projectAt R₁ files) (projectAt R₂ files) where
  left := h₁
  right := h₂
  files := sameFiles_projectAt h₁ h₂ hf
  valid := hv
  extensions := he
  patterns pattern hm _ _ h := by
    obtain ⟨hslash, hne, hroots⟩ := hp pattern hm
    exact occursIn_moved h₁ h₂ hslash hne hroots h

end ModuleBundler
