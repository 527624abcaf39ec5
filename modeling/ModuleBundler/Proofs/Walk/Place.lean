import ModuleBundler.Proofs.Path.Anchor
import ModuleBundler.Proofs.Relocation.Project
import ModuleBundler.Proofs.Walk.Closure

/-!
# A walk stays among clean absolute paths

An entry is cleaned before the walk begins, a reference is seen from the directory of its file, and what is
tried for it are names in or below the directory of the candidate. So the members of a dependency set are places
(`isPlace_of_mem_meetings`), with one condition: no file may stand at the root of the file system. Such a file
would have no directory to see its references from, and an extension `..` would lead to it from below.
-/

namespace ModuleBundler

open ModuleBundler.Path

/-! ### Candidates -/

theorem isPlace_candidatePath {p : Path} (hp : p.IsPlace) (hne : p ≠ top) (specifier : String) :
    (candidatePath p specifier).IsPlace := by
  obtain ⟨ns, hn, rfl⟩ := isPlace_iff.mp hp
  rcases List.eq_nil_or_concat' ns with rfl | ⟨directory, file, rfl⟩
  · exact absurd rfl hne
  · rw [candidatePath_eq_along hn]
    exact isPlace_along (names_candidateNames (names_append.mp hn).1 specifier)

/-! ### Probes -/

/-- An extension stands below the root of the file system as a name, or it leads up from there. -/
theorem isPlace_append_top {ext : String} (he : isExtension ext = true) :
    (top.append ext).IsPlace ∨ top.append ext = ⟨"/.."⟩ := by
  obtain ⟨hslash, c, cs, hext⟩ := toList_of_isExtension he
  by_cases hup : ext = ".."
  · exact .inr (by rw [hup]; rfl)
  · refine .inl (isPlace_iff.mpr ⟨[ext], ?_, ?_⟩)
    · rw [names_cons]
      refine ⟨isName_iff.mpr ⟨hslash, by simp [hext], by simp [hext], fun h => hup ?_⟩, names_nil⟩
      exact String.toList_inj.mp h
    · have htext : (top.append ext).text = (along [ext]).text :=
        String.toList_inj.mp (by rw [toList_along]; simp [top, Path.append, spellParts, Part.text])
      exact congrArg Path.mk htext

/-- What is tried for a place are places, but for a way up from the root of the file system. -/
theorem isPlace_of_mem_probes {exts : List String} (he : ∀ ext ∈ exts, isExtension ext = true) {p q : Path}
    (hp : p.IsPlace) (hq : q ∈ probes exts p) : q.IsPlace ∨ q = ⟨"/.."⟩ := by
  obtain ⟨ns, hn, rfl⟩ := isPlace_iff.mp hp
  rcases List.eq_nil_or_concat' ns with rfl | ⟨ms, s, rfl⟩
  · rw [probes_eq names_nil] at hq
    split_ifs at hq with hends
    · rw [List.mem_singleton.mp hq]
      exact .inl (isPlace_along names_nil)
    · rcases List.mem_append.mp hq with hq | hq <;> obtain ⟨ext, hm, rfl⟩ := List.mem_map.mp hq
      · exact isPlace_append_top (he ext hm)
      · have hi : IsName ("index" ++ ext) := isName_append (by decide) (by decide) (he ext hm)
        rw [append_along]
        exact .inl (isPlace_along (names_cons.mpr ⟨hi, names_nil⟩))
  · obtain ⟨hm, hs⟩ := names_append.mp hn
    rw [probes_along he hn] at hq
    obtain ⟨tail, ht, rfl⟩ := List.mem_map.mp hq
    exact .inl (isPlace_along (names_append.mpr ⟨hm, names_of_mem_probeNames he (names_cons.mp hs).1 ht⟩))

/-! ### References -/

/-- No text is to be had at the root of the file system, and what leads up from there is no file. -/
structure Files.RootIsNoFile (files : Files) : Prop where
  source : ∀ text, files.source top ≠ .ok text
  isFile : files.isFile ⟨"/.."⟩ = false

section

variable {files : Files} {options : Options} (hf : files.RootIsNoFile)
  (he : ∀ ext ∈ options.extensions, isExtension ext = true)

include hf he

/-- A reference leads to a place with a file. -/
theorem isPlace_of_resolve {p q : Path} {specifier : String} (hp : p.IsPlace) (hne : p ≠ top)
    (h : resolve files options p specifier = some q) : q.IsPlace ∧ files.isFile q = true := by
  unfold resolve at h
  split_ifs at h
  have hfile := List.find?_some h
  refine ⟨(isPlace_of_mem_probes he (isPlace_candidatePath hp hne specifier)
    (List.mem_of_find?_eq_some h)).resolve_right ?_, hfile⟩
  rintro rfl
  rw [hf.isFile] at hfile
  cases hfile

/-- The references of a file lead to places with files. -/
theorem isPlace_of_mem_targets {p q : Path} (hp : p.IsPlace) (h : q ∈ targets files options p) :
    q.IsPlace ∧ files.isFile q = true := by
  unfold targets at h
  cases hs : files.source p with
  | error e =>
    rw [hs] at h
    exact absurd h List.not_mem_nil
  | ok source =>
    rw [hs] at h
    obtain ⟨r, -, hr⟩ := List.mem_filterMap.mp h
    refine isPlace_of_resolve hf he hp ?_ (target?_eq_some_iff.mp hr).2
    rintro rfl
    exact hf.source source hs

theorem isPlace_of_chain {n : Nat} {p q : Path} (hp : p.IsPlace) (h : Chain (IsChild files options) n p q) :
    q.IsPlace :=
  h.induct hp fun _ _ hp hq => (isPlace_of_mem_targets hf he hp (isChild_iff_mem_targets.mp hq).1).1

/-! ### Walks -/

/-- **A walk from a place meets places only.** -/
theorem isPlace_of_mem_meetings {p : Path} (hp : p.IsPlace) {m : Meeting}
    (hm : m ∈ meetings files options p) : m.path.IsPlace := by
  cases hi : options.ignores p with
  | true =>
    rw [meetings_of_ignores hi] at hm
    exact absurd hm List.not_mem_nil
  | false =>
    have hroute := (explored_meetings hi).route m hm
    exact isPlace_of_chain hf he hp (hroute.mono fun _ _ h => h.1)

end

/-- A value of the report of a walk tells that the walk succeeds. -/
theorem exists_report_of_map {α : Type} {files : Files} {options : Options} {entry : Path} {f : Report → α} {a : α}
    (h : (walk files options entry).map f = .ok a) :
    ∃ report, walk files options entry = .ok report ∧ f report = a := by
  cases hw : walk files options entry with
  | error e => simp [hw, Except.map] at h
  | ok report => exact ⟨report, rfl, by simpa [hw, Except.map] using h⟩

/-- An entry is seen from the project root. -/
theorem isPlace_of_entryPath {files : Files} {options : Options} {entry p root : Path}
    (hroot : projectRoot files options = .ok root) (hplace : root.IsPlace)
    (h : entryPath files options entry = .ok p) : p.IsPlace := by
  unfold entryPath at h
  split_ifs at h with ha
  · exact Except.ok.inj h ▸ isPlace_clean ha
  · rw [hroot] at h
    exact Except.ok.inj h ▸ isPlace_clean_join hplace.absolute entry

/-- A store that keeps no file at the root of the file system. -/
theorem FileStore.rootIsNoFile {store : FileStore} (h : store.files.get? top = none) :
    store.view.RootIsNoFile where
  source text hs := by
    have htop : (top : Path).IsPlace := isPlace_along names_nil
    simp only [Files.source, view, store.contentAt_of_isPlace htop, h] at hs
    split_ifs at hs
  isFile := by
    have hloc : store.locate ⟨"/.."⟩ = top := by
      unfold locate join
      rw [if_pos (by decide)]
      decide
    show store.isFile _ = false
    rw [isFile_eq, hloc, h]
    rfl

end ModuleBundler
