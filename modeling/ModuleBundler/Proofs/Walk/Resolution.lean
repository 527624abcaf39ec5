import ModuleBundler.Proofs.Walk.Place

/-!
# What a reference leads to

A set of files can serve as a guard against cycles only if every file has one spelling in it. It does: what a
reference leads to is a place, however the reference spells it (`isPlace_of_resolve`), so that two references to one
file come to the same text, and that text taken as a reference leads to the file again from wherever it is seen
(`resolve_first_stored`). The candidates and what is tried for them are told by their names in
`candidatePath_eq_along` and `probes_eq`. An extension is written after a clean candidate and not cleaned any more; it
has no slash in it and ends the name of a file, unless it leads up from the root of the file system.
-/

namespace ModuleBundler

open ModuleBundler.Path

/-! ### Stored files -/

/-- Whether a file is stored under the clean form of `p`. -/
def FileStore.Holds (store : FileStore) (p : Path) : Prop :=
  ∃ content, store.files.get? (store.locate p) = some content

theorem FileStore.isFile_iff_holds {store : FileStore} {p : Path} : store.view.isFile p = true ↔ store.Holds p := by
  show store.isFile p = true ↔ _
  rw [store.isFile_eq, Option.isSome_iff_exists]
  rfl

/-! ### Endings -/

theorem endsInOneOf_eq_true_iff {p : Path} {endings : List String} :
    p.endsInOneOf endings = true ↔ ∃ ending ∈ endings, ending.toList <:+ p.text.toList := by
  simp [endsInOneOf]

/-- What is joined to a directory is written at the end. -/
theorem text_suffix_join (p q : Path) : q.text.toList <:+ (p.join q).text.toList := by
  unfold join
  split_ifs
  · exact List.suffix_rfl
  · exact ⟨p.text.toList, by simp⟩
  · exact ⟨p.text.toList ++ ['/'], by simp⟩

/-- Whatever is tried for a candidate ends in one of the extensions. -/
theorem endsInOneOf_of_mem_probes {exts : List String} {p q : Path} (h : q ∈ probes exts p) :
    q.endsInOneOf exts = true := by
  unfold probes at h
  split_ifs at h with hends
  · rwa [List.mem_singleton.mp h]
  · rw [endsInOneOf_eq_true_iff]
    rcases List.mem_append.mp h with h | h <;> obtain ⟨ext, hext, rfl⟩ := List.mem_map.mp h
    · exact ⟨ext, hext, by simp [Path.append]⟩
    · have hindex : ext.toList <:+ ("index" ++ ext).toList := ⟨"index".toList, by simp⟩
      exact ⟨ext, hext, hindex.trans (text_suffix_join p ⟨"index" ++ ext⟩)⟩

/-! ### Results as references -/

/-- **A file that a reference can lead to is found under its own text**, from whichever file. -/
theorem resolve_text {files : Files} {options : Options} {q : Path} (hq : q.IsPlace)
    (hends : q.endsInOneOf options.extensions = true) (hfile : files.isFile q = true) (importer : Path) :
    resolve files options importer q.text = some q := by
  have hpath : isPathSpecifier q.text = true := by
    obtain ⟨cs, hcs⟩ := List.head?_eq_some_iff.mp (by simpa [isAbsolute] using hq.absolute)
    simp [isPathSpecifier, hcs]
  have hcandidate : candidatePath importer q.text = q := by
    unfold candidatePath
    rw [join, if_pos hq.absolute, hq.clean]
  rw [resolve, if_pos hpath, hcandidate, probes, if_pos hends, List.find?_cons_of_pos hfile]

/-- **A reference leads to the first stored file among what is tried**, and to nothing if it is no path or none of
these files is stored. What it leads to is a file of the store under just this path, absolute and clean, and it ends
in one of the extensions. Other references that lead to the same file lead to the same path, and so does the text of
the path, from whichever file. -/
theorem resolve_first_stored (store : FileStore) {options : Options} {importer : Path}
    (hv : options.validate = .ok ()) (hf : store.files.get? top = none) (hp : importer.IsPlace)
    (hne : importer ≠ top) (specifier : String) :
    (isPathSpecifier specifier = false → resolve store.view options importer specifier = none) ∧
    (isPathSpecifier specifier = true →
      (∀ q, resolve store.view options importer specifier = some q ↔ store.Holds q ∧ ∃ before after,
        probes options.extensions (candidatePath importer specifier) = before ++ q :: after ∧
          ∀ r ∈ before, ¬ store.Holds r) ∧
      (resolve store.view options importer specifier = none ↔
        ∀ r ∈ probes options.extensions (candidatePath importer specifier), ¬ store.Holds r)) ∧
    ∀ q, resolve store.view options importer specifier = some q →
      (∃ content, store.files.get? q = some content) ∧ q.isAbsolute = true ∧ q.clean = q ∧
      (∃ ext ∈ options.extensions, ext.toList <:+ q.text.toList) ∧
      (∀ importer' specifier' q', importer'.IsPlace → importer' ≠ top →
        resolve store.view options importer' specifier' = some q' → store.locate q' = store.locate q → q' = q) ∧
      ∀ importer', resolve store.view options importer' q.text = some q := by
  have hplace : ∀ {importer specifier q}, importer.IsPlace → importer ≠ top →
      resolve store.view options importer specifier = some q → q.IsPlace ∧ store.view.isFile q = true :=
    isPlace_of_resolve (FileStore.rootIsNoFile hf) (isExtension_of_validate hv)
  have hnot : ∀ r, (!store.view.isFile r) = true ↔ ¬ store.Holds r := fun r => by
    rw [← FileStore.isFile_iff_holds, Bool.not_eq_true', Bool.not_eq_true]
  refine ⟨fun hbare => ?_, fun hpath => ⟨fun q => ?_, ?_⟩, fun q hq => ?_⟩
  · rw [resolve, if_neg (by simp [hbare])]
  · rw [resolve, if_pos hpath, List.find?_eq_some_iff_append, FileStore.isFile_iff_holds]
    simp only [hnot]
  · rw [resolve, if_pos hpath, List.find?_eq_none]
    simp only [FileStore.isFile_iff_holds]
  · obtain ⟨hqplace, hfile⟩ := hplace hp hne hq
    have hends : q.endsInOneOf options.extensions = true := by
      unfold resolve at hq
      split_ifs at hq
      exact endsInOneOf_of_mem_probes (List.mem_of_find?_eq_some hq)
    refine ⟨?_, hqplace.absolute, hqplace.clean, endsInOneOf_eq_true_iff.mp hends, ?_, resolve_text hqplace hends hfile⟩
    · rw [← store.locate_of_isPlace hqplace]
      exact FileStore.isFile_iff_holds.mp hfile
    · intro importer' specifier' q' hp' hne' hq' hsame
      have hqplace' := (hplace hp' hne' hq').1
      rwa [store.locate_of_isPlace hqplace', store.locate_of_isPlace hqplace] at hsame

/-- Two files that one reference could lead to, of which the first one ends in an extension of dots. -/
def annex : FileStore where
  workingDirectory := ⟨"/app"⟩
  files := [(⟨"/lib.."⟩, "1".toUTF8), (⟨"/lib/index.js"⟩, "2".toUTF8)]

/-- Options under which dots are an extension. -/
def annexOptions : Options := { extensions := [".js", ".."] }

theorem resolve_first_stored_annex :
    resolve annex.view annexOptions ⟨"/app/src/main.js"⟩ "../..//lib/./" = some ⟨"/lib.."⟩ ∧
    (∃ before after, probes annexOptions.extensions (candidatePath ⟨"/app/src/main.js"⟩ "../..//lib/./") =
      before ++ ⟨"/lib.."⟩ :: after ∧ ∀ r ∈ before, ¬ annex.Holds r) ∧
    (⟨"/lib.."⟩ : Path).clean = ⟨"/lib.."⟩ ∧
    (∀ q', resolve annex.view annexOptions ⟨"/src/a.js"⟩ "../lib" = some q' →
      annex.locate q' = annex.locate ⟨"/lib.."⟩ → q' = ⟨"/lib.."⟩) ∧
    ∀ importer', resolve annex.view annexOptions importer' "/lib.." = some ⟨"/lib.."⟩ := by
  have hq : resolve annex.view annexOptions ⟨"/app/src/main.js"⟩ "../..//lib/./" = some ⟨"/lib.."⟩ := by decide
  have hvalid : annexOptions.validate = .ok () := by decide
  have hplace : (⟨"/app/src/main.js"⟩ : Path).IsPlace := by decide
  obtain ⟨-, hfirst, hresult⟩ := resolve_first_stored annex hvalid (by decide) hplace (by decide) "../..//lib/./"
  obtain ⟨-, -, hclean, -, hsame, hagain⟩ := hresult _ hq
  exact ⟨hq, (((hfirst (by decide)).1 _).mp hq).2, hclean,
    fun q' => hsame ⟨"/src/a.js"⟩ "../lib" q' (by decide) (by decide), hagain⟩

end ModuleBundler
