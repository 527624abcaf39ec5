import ModuleBundler.Files.Disk
import ModuleBundler.Proofs.Walk.Place

/-!
# Paths on a disk

A system follows a path name by name, and on the way it may meet a file where a directory is needed, or a name
that is too long. A clean absolute path that leads anywhere leads to the place with the names along it
(`eq_of_follow_along`), so what can be read at such a path is a file of the tree (`Readable.read_eq_ok_iff`).
-/

namespace ModuleBundler

open ModuleBundler.Path

namespace Disk

variable {disk : Disk} {ns names : List String}

/-! ### Following names -/

/-- A step along a name goes down to the name. -/
theorem eq_of_step {s : String} (hs : IsName s) (h : disk.step ns s.toList = .ok names) : names = ns ++ [s] := by
  obtain ⟨-, hne, hdot, hup⟩ := isName_iff.mp hs
  unfold step at h
  rw [String.ofList_toList] at h
  split at h
  · cases h
  · cases h
  · rw [if_neg (by simp [hne, hdot]), if_neg hup] at h
    dsimp only at h
    split_ifs at h
    exact (Except.ok.inj h).symm

/-- Steps are taken from directories. -/
theorem at?_of_step {segment : List Char} (h : disk.step ns segment = .ok names) :
    disk.at? ns = some .directory := by
  unfold step at h
  split at h
  · cases h
  · cases h
  · assumption

/-- An empty segment goes nowhere. -/
theorem eq_of_step_nil (h : disk.step ns [] = .ok names) : names = ns := by
  unfold step at h
  split at h
  · cases h
  · cases h
  · rw [if_pos (.inl rfl)] at h
    exact (Except.ok.inj h).symm

/-- Steps along names go down to the last one. -/
theorem eq_of_foldlM_step {ms : List String} (hm : Names ms)
    (h : (ms.map String.toList).foldlM disk.step ns = .ok names) : names = ns ++ ms := by
  induction ms generalizing ns with
  | nil => exact (Except.ok.inj h).symm.trans (List.append_nil ns).symm
  | cons s ms ih =>
    rw [names_cons] at hm
    rw [List.map_cons, List.foldlM_cons] at h
    cases hstep : disk.step ns s.toList with
    | error fault =>
      rw [hstep] at h
      cases h
    | ok child =>
      rw [hstep, eq_of_step hm.1 hstep] at h
      rw [ih hm.2 h, List.append_assoc]
      rfl

/-- **Where a clean absolute path leads**: to the names along it, or nowhere. -/
theorem eq_of_follow_along (hn : Names ns) (h : disk.follow (along ns) = .ok names) : names = ns := by
  have hsegments : segments (along ns).text.toList = [] :: segments (spellParts (ns.map .name)) := by
    rw [toList_along]
    exact segments_append_slash [] _
  unfold follow at h
  simp only [isAbsolute_along, if_true] at h
  split_ifs at h
  rw [hsegments, List.foldlM_cons] at h
  cases hstep : disk.step [] [] with
  | error fault =>
    rw [hstep] at h
    cases h
  | ok start =>
    obtain rfl := eq_of_step_nil hstep
    rw [hstep] at h
    by_cases hns : ns = []
    · subst hns
      have h : (segments []).foldlM disk.step [] = .ok names := h
      rw [segments_of_not_mem List.not_mem_nil, List.foldlM_cons, hstep] at h
      exact (Except.ok.inj h).symm
    · rw [segments_spellParts hn hns] at h
      exact eq_of_foldlM_step hn h

theorem at?_of_find_along {place : Place} (hn : Names ns) (h : disk.find (along ns) = .ok place) :
    disk.at? ns = some place := by
  unfold find at h
  cases hf : disk.follow (along ns) with
  | error fault =>
    rw [hf] at h
    cases h
  | ok names =>
    rw [hf, eq_of_follow_along hn hf] at h
    simp only [bind, Except.bind] at h
    split at h
    · obtain rfl := Except.ok.inj h
      assumption
    · cases h

/-! ### Files -/

theorem mem_of_at?_eq_file {content : ByteArray} (h : disk.at? ns = some (.file content)) :
    (ns, content) ∈ disk.files := by
  unfold at? at h
  split at h
  next content' hlookup =>
    obtain rfl := Place.file.inj (Option.some.inj h)
    obtain ⟨before, after, hfiles, -⟩ := List.lookup_eq_some_iff.mp hlookup
    rw [hfiles]
    simp
  next => split_ifs at h; cases h

theorem read_eq_ok_iff {p : Path} {content : ByteArray} :
    disk.read p = .ok content ↔ disk.find p = .ok (.file content) := by
  unfold read
  cases disk.find p with
  | error fault => simp
  | ok place => cases place <;> simp

/-- What can be read is a file, and every file can be read. -/
theorem isFile_iff {p : Path} : disk.isFile p = true ↔ ∃ content, disk.read p = .ok content := by
  simp only [read_eq_ok_iff]
  unfold isFile exists? info
  cases disk.find p with
  | error fault => simp [Except.isOk, Except.toBool]
  | ok place => cases place <;> simp [Except.isOk, Except.toBool]

/-- A tree whose files lie at places, and can be read there. -/
def Readable (disk : Disk) : Prop :=
  ∀ file ∈ disk.files, Names file.1 ∧ disk.read (along file.1) = .ok file.2

instance (disk : Disk) : Decidable disk.Readable := inferInstanceAs (Decidable (∀ _ ∈ _, _))

/-- **What is read at a clean absolute path** are the files of the tree. -/
theorem Readable.read_eq_ok_iff (h : disk.Readable) (hn : Names ns) {content : ByteArray} :
    disk.read (along ns) = .ok content ↔ (ns, content) ∈ disk.files := by
  constructor
  · intro hr
    exact mem_of_at?_eq_file (at?_of_find_along hn (Disk.read_eq_ok_iff.mp hr))
  · intro hm
    exact (h _ hm).2

/-! ### The root of the file system -/

/-- An absolute path is followed from the root of the file system, which has to be a directory. -/
theorem at?_nil_of_follow {p : Path} (hp : p.isAbsolute = true) (h : disk.follow p = .ok names) :
    disk.at? [] = some .directory := by
  unfold follow at h
  simp only [hp, if_true] at h
  split_ifs at h
  obtain ⟨segment, rest, hsegments⟩ := List.exists_cons_of_ne_nil (segments_ne_nil p.text.toList)
  rw [hsegments, List.foldlM_cons] at h
  cases hstep : disk.step [] segment with
  | error fault =>
    rw [hstep] at h
    cases h
  | ok next => exact at?_of_step hstep

/-- What leads to the root of the file system leads to a directory. -/
theorem read_ne_ok_of_follow_nil {p : Path} (hp : p.isAbsolute = true)
    (h : ∀ names, disk.follow p = .ok names → names = []) (content : ByteArray) : disk.read p ≠ .ok content := by
  rw [Ne, read_eq_ok_iff, find]
  cases hf : disk.follow p with
  | error fault => simp [bind, Except.bind]
  | ok names =>
    obtain rfl := h names hf
    simp [bind, Except.bind, at?_nil_of_follow hp hf]

theorem follow_up_from_top (h : disk.follow ⟨"/.."⟩ = .ok names) : names = [] := by
  have hdir := at?_nil_of_follow (by decide) h
  have hsegments : segments ['/', '.', '.'] = [[], ['.', '.']] := by decide
  have hsteps : [[], ['.', '.']].foldlM disk.step [] = .ok ([] : List String) := by
    simp [List.foldlM, step, hdir, bind, Except.bind, pure, Except.pure]
  have hshort : "/..".utf8ByteSize ≤ 4095 := by decide
  have hfollow : disk.follow ⟨"/.."⟩ = .ok [] := by
    unfold follow
    simp [hsegments, isAbsolute, hsteps, hshort]
  rw [hfollow] at h
  exact (Except.ok.inj h).symm

theorem read_top_ne_ok (disk : Disk) (content : ByteArray) : disk.read top ≠ .ok content :=
  read_ne_ok_of_follow_nil (by decide) (fun _ => eq_of_follow_along names_nil) content

theorem rootIsNoFile (disk : Disk) (directory : Option Path) : (disk.view directory).RootIsNoFile where
  source text hs := by
    unfold Files.source at hs
    cases hr : (disk.view directory).read top with
    | error e => simp [hr] at hs
    | ok content => exact disk.read_top_ne_ok content hr
  isFile := by
    by_contra hfile
    obtain ⟨content, hread⟩ := isFile_iff.mp ((Bool.not_eq_false _).mp hfile)
    exact read_ne_ok_of_follow_nil (by decide) (fun names => follow_up_from_top) content hread

end Disk

end ModuleBundler
