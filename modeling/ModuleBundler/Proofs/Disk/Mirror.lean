import ModuleBundler.Proofs.Disk.Lookup
import ModuleBundler.Proofs.Walk.Agreement

/-!
# The files of a disk in memory

A store may keep the files of a tree, and nothing else, under their absolute paths (`FileStore.Mirrors`). It knows
of no directories, it looks a path up as a whole, and it never follows one through the tree. For a bundler it is
the tree all the same: references lead to the same files, and walks end alike, whatever the order in which the
answers of the disk arrive (`walks_agree`).
-/

namespace ModuleBundler

open ModuleBundler.Path

/-- A store that keeps the files of a tree under their absolute paths, each of them readable, and nothing else. -/
structure FileStore.Mirrors (store : FileStore) (disk : Disk) : Prop where
  files : ∀ p content, store.files.get? p = some content ↔ ∃ ns, (ns, content) ∈ disk.files ∧ along ns = p
  unreadable : store.unreadable = []

/-- What is read the same way has the same text. -/
theorem Files.source_toOption_congr {files files' : Files} {p : Path}
    (h : ∀ content, files.read p = .ok content ↔ files'.read p = .ok content) :
    (files.source p).toOption = (files'.source p).toOption := by
  unfold source
  cases hr : files.read p with
  | ok content => rw [(h content).mp hr]
  | error e =>
    cases hr' : files'.read p with
    | ok content =>
      rw [(h content).mpr hr'] at hr
      cases hr
    | error e' => rfl

section

variable {disk : Disk} {store : FileStore} (hr : disk.Readable) (hm : store.Mirrors disk)

include hr hm

/-! ### Answers -/

/-- The files at a place. -/
theorem FileStore.Mirrors.get?_along {ns : List String} (hn : Names ns) {content : ByteArray} :
    store.files.get? (along ns) = some content ↔ (ns, content) ∈ disk.files := by
  rw [hm.files]
  constructor
  · rintro ⟨ms, hms, he⟩
    have hms' : Names ms := (hr _ hms).1
    rwa [(along_inj hms' hn).mp he] at hms
  · exact fun h => ⟨ns, h, rfl⟩

/-- The disk and the store tell the same of every place. -/
theorem FileStore.Mirrors.sameAnswers (directory : Option Path) :
    SameAnswers (disk.view directory) store.view where
  isFile p hp := by
    obtain ⟨ns, hn, rfl⟩ := isPlace_iff.mp hp
    show disk.isFile _ = store.isFile _
    rw [store.isFile_of_isPlace hp, Bool.eq_iff_iff, Disk.isFile_iff, Option.isSome_iff_exists]
    exact exists_congr fun content => (hr.read_eq_ok_iff hn).trans (hm.get?_along hr hn).symm
  source p hp := by
    obtain ⟨ns, hn, rfl⟩ := isPlace_iff.mp hp
    refine Files.source_toOption_congr fun content => ?_
    show disk.read _ = .ok content ↔ store.contentAt _ = .ok content
    rw [hr.read_eq_ok_iff hn, store.contentAt_of_isPlace hp, hm.unreadable, if_neg (by simp),
      ← hm.get?_along hr hn]
    cases store.files.get? (along ns) <;> simp
  left := disk.rootIsNoFile directory
  right := by
    refine FileStore.rootIsNoFile (Option.eq_none_iff_forall_ne_some.mpr fun content hc => ?_)
    have hread := (hr.read_eq_ok_iff names_nil).mpr ((hm.get?_along hr names_nil).mp hc)
    exact disk.read_top_ne_ok content hread

/-! ### Files within reach -/

omit hr hm in
/-- What has a text in memory is a file there. -/
theorem FileStore.isFile_of_source {p : Path} (hp : p.IsPlace) {source : String}
    (h : store.view.source p = .ok source) : store.view.isFile p = true := by
  show store.isFile p = true
  rw [store.isFile_of_isPlace hp]
  simp only [Files.source, view, store.contentAt_of_isPlace hp] at h
  split_ifs at h
  cases hg : store.files.get? p with
  | none => simp [hg] at h
  | some content => rfl

/-- A walk can reach no more than the files of the tree. -/
theorem FileStore.Mirrors.encard_reachable_le_length {options : Options}
    (he : ∀ ext ∈ options.extensions, isExtension ext = true) {p : Path} (hp : p.IsPlace) {source : String}
    (hs : store.view.source p = .ok source) : (reachable store.view options p).encard ≤ disk.files.length := by
  have hf : store.view.RootIsNoFile := (hm.sameAnswers hr none).right
  have hknown : ∀ q : Path, q.IsPlace → store.view.isFile q = true →
      q ∈ disk.files.map fun file => along file.1 := by
    intro q hq hfile
    obtain ⟨ns, hn, rfl⟩ := isPlace_iff.mp hq
    obtain ⟨content, hc⟩ := Option.isSome_iff_exists.mp ((store.isFile_of_isPlace hq).symm.trans hfile)
    exact List.mem_map.mpr ⟨(ns, content), (hm.get?_along hr hn).mp hc, rfl⟩
  have hclosed : ∀ q ∈ disk.files.map (fun file => along file.1), ∀ r ∈ targets store.view options q,
      r ∈ disk.files.map fun file => along file.1 := by
    intro q hq r hrq
    obtain ⟨file, hfile, rfl⟩ := List.mem_map.mp hq
    obtain ⟨hplace, hisFile⟩ := isPlace_of_mem_targets hf he (isPlace_along (hr file hfile).1) hrq
    exact hknown r hplace hisFile
  have hbound := encard_reachable_le (hknown p hp (FileStore.isFile_of_source hp hs)) hclosed
  rwa [List.length_map] at hbound

end

/-! ### Entries -/

/-- The project root is the same place for a disk and for a store that has its working directory. -/
theorem exists_projectRoot_view (disk : Disk) {directory : Option Path} {store : FileStore} (options : Options)
    (ha : (directory.getD disk.workingPath).isAbsolute = true)
    (hd : store.workingDirectory = (directory.getD disk.workingPath).clean) :
    ∃ root, root.IsPlace ∧ projectRoot (disk.view directory) options = .ok root ∧
      projectRoot store.view options = .ok root := by
  have hplace := isPlace_clean ha
  unfold projectRoot
  simp only [Disk.view, FileStore.view, hd, Except.map]
  cases options.root with
  | none => exact ⟨_, hplace, rfl, by rw [hplace.clean]⟩
  | some root =>
    cases hroot : root.isAbsolute with
    | true => exact ⟨_, isPlace_clean hroot, by simp [hroot], by simp [hroot]⟩
    | false => exact ⟨_, isPlace_clean_join ha root, by simp [hroot], by simp [hroot, clean_join_clean ha]⟩

/-- An entry is the same place on the disk and in memory. -/
theorem exists_entryPath_view (disk : Disk) {directory : Option Path} {store : FileStore} (options : Options)
    (ha : (directory.getD disk.workingPath).isAbsolute = true)
    (hd : store.workingDirectory = (directory.getD disk.workingPath).clean) (entry : Path) :
    ∃ p, p.IsPlace ∧ entryPath (disk.view directory) options entry = .ok p ∧
      entryPath store.view options entry = .ok p := by
  obtain ⟨root, hplace, hroot, hroot'⟩ := exists_projectRoot_view disk options ha hd
  unfold entryPath
  cases hentry : entry.isAbsolute with
  | true => exact ⟨_, isPlace_clean hentry, rfl, rfl⟩
  | false => exact ⟨_, isPlace_clean_join hplace.absolute entry, by simp [hroot], by simp [hroot']⟩

/-! ### Agreement -/

/-- **A disk and its files in memory agree.** Let a store keep the readable files of a tree, and take for its
working directory what the bundler on the disk takes for it. Then every reference leads to the same file, from
every place that has a directory. If the limit is not smaller than the number of files, walks end alike, whatever
the order in which their branches take turns, and the walks that visit one file after the other are among them. -/
theorem walks_agree {disk : Disk} {directory : Option Path} {store : FileStore} {options : Options}
    (hr : disk.Readable) (hm : store.Mirrors disk) (ha : (directory.getD disk.workingPath).isAbsolute = true)
    (hd : store.workingDirectory = (directory.getD disk.workingPath).clean) (hv : options.validate = .ok ()) :
    (∀ importer, importer.IsPlace → importer ≠ top → ∀ specifier,
      resolve (disk.view directory) options importer specifier =
        resolve store.view options importer specifier) ∧
    (disk.files.length ≤ options.maxDepth.toNat → ∀ entry,
      Ends (disk.view directory) options entry (walk (disk.view directory) options entry) ∧
      Ends store.view options entry (walk store.view options entry) ∧
      ∀ x y, Ends (disk.view directory) options entry x → Ends store.view options entry y →
        SameOutcome x y) := by
  have he := isExtension_of_validate hv
  have hsame := hm.sameAnswers hr directory
  refine ⟨fun importer hp hne => resolve_eq hsame he hp hne, fun hlimit entry => ?_⟩
  refine ⟨ends_walk _ _ _, ends_walk _ _ _, fun x y hx hy => ?_⟩
  obtain ⟨p, hplace, hp, hp'⟩ := exists_entryPath_view disk options ha hd entry
  refine sameOutcome_of_ends hsame he hp hp' hplace ?_ hx hy
  rintro ⟨source, hs⟩
  refine (hm.encard_reachable_le_length hr he hplace hs).trans ?_
  exact_mod_cast hlimit

/-! ### Trees in memory -/

/-- The files of a tree in memory. -/
def Disk.inMemory (disk : Disk) (directory : Path) : FileStore where
  workingDirectory := directory.clean
  files := disk.files.map fun file => (along file.1, file.2)

theorem Disk.Readable.mirrors {disk : Disk} (hr : disk.Readable) (directory : Path) :
    (disk.inMemory directory).Mirrors disk := by
  have hfound : ∀ p content, (disk.inMemory directory).files.get? p = some content →
      ∃ ns, (ns, content) ∈ disk.files ∧ along ns = p := by
    intro p content h
    obtain ⟨file, hfile, he⟩ := List.mem_map.mp (Table.mem_of_get?_eq_some h)
    obtain ⟨rfl, rfl⟩ := Prod.mk.inj he
    exact ⟨file.1, hfile, rfl⟩
  refine ⟨fun p content => ⟨hfound p content, ?_⟩, rfl⟩
  rintro ⟨ns, hfile, rfl⟩
  obtain ⟨hn, hread⟩ := hr _ hfile
  have hkey : ((disk.inMemory directory).files.find? fun entry => decide (entry.1 = along ns)).isSome :=
    List.find?_isSome.mpr ⟨_, List.mem_map_of_mem hfile, by simp⟩
  cases hg : (disk.inMemory directory).files.get? (along ns) with
  | none => simp [Table.get?, Option.isSome_iff_ne_none.mp hkey] at hg
  | some content' =>
    -- the file that is found there has the same names, and reading it gives the same
    obtain ⟨ms, hfile', he⟩ := hfound _ _ hg
    obtain ⟨hn', hread'⟩ := hr _ hfile'
    rw [he, hread] at hread'
    exact congrArg some (Except.ok.inj hread').symm

/-- A tree with a directory that has the name of a module, a reference through a file, and a file that is no
text. -/
def thicket : Disk where
  workingDirectory := ["home"]
  directories := [["app", "lib.js"], ["empty"]]
  files :=
    [(["app", "index.js"], "import './a';import './lib';import './raw';".toUTF8),
      (["app", "a.js"], "import './index';import './index.js/b';".toUTF8),
      (["app", "lib", "index.js"], "import '../a';import '../lib.js';".toUTF8),
      (["app", "raw.js"], ⟨#[0xff]⟩)]

/-- Options with a limit that the files of `thicket` just keep to. -/
def thicketOptions : Options := { extensions := [".js"], ignorePatterns := [], maxDepth := 4 }

theorem walks_agree_thicket : ∃ report,
    walk (thicket.inMemory ⟨"/app"⟩).view thicketOptions ⟨"index.js"⟩ = .ok report ∧
    report.dependencies.paths = [⟨"/app/index.js"⟩, ⟨"/app/a.js"⟩, ⟨"/app/lib/index.js"⟩, ⟨"/app/raw.js"⟩] ∧
    report.unresolved = [⟨"./index.js/b", ⟨"/app/a.js"⟩⟩, ⟨"../lib.js", ⟨"/app/lib/index.js"⟩⟩] ∧
    report.failed = [⟨"/app/raw.js"⟩] ∧
    (∀ x, Ends (thicket.view (some ⟨"/app/../app"⟩)) thicketOptions ⟨"index.js"⟩ x → SameOutcome x (.ok report)) ∧
    resolve (thicket.view (some ⟨"/app/../app"⟩)) thicketOptions ⟨"/app/index.js"⟩ "./lib" =
      some ⟨"/app/lib/index.js"⟩ := by
  have hr : thicket.Readable := by decide +kernel
  have hd : (thicket.inMemory ⟨"/app"⟩).workingDirectory =
      ((some (⟨"/app/../app"⟩ : Path)).getD thicket.workingPath).clean := by decide
  have hv : thicketOptions.validate = .ok () := by decide
  obtain ⟨hresolve, hwalks⟩ := walks_agree hr (hr.mirrors ⟨"/app"⟩) (by decide) hd hv
  have hreport : (walk (thicket.inMemory ⟨"/app"⟩).view thicketOptions ⟨"index.js"⟩).map (fun report =>
      (report.dependencies.paths, report.unresolved, report.failed)) =
      .ok ([⟨"/app/index.js"⟩, ⟨"/app/a.js"⟩, ⟨"/app/lib/index.js"⟩, ⟨"/app/raw.js"⟩],
        [⟨"./index.js/b", ⟨"/app/a.js"⟩⟩, ⟨"../lib.js", ⟨"/app/lib/index.js"⟩⟩], [⟨"/app/raw.js"⟩]) := by
    decide +kernel
  obtain ⟨report, hw, he⟩ := exists_report_of_map hreport
  obtain ⟨-, hend, hsame⟩ := hwalks (by decide) ⟨"index.js"⟩
  rw [hw] at hend
  refine ⟨report, hw, congrArg (·.1) he, congrArg (·.2.1) he, congrArg (·.2.2) he,
    fun x hx => hsame x _ hx hend, ?_⟩
  rw [hresolve _ (by decide) (by decide)]
  decide +kernel

end ModuleBundler
