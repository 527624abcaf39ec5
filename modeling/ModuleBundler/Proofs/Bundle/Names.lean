import ModuleBundler.Bundle.Script
import ModuleBundler.Proofs.Json.RoundTrip
import ModuleBundler.Proofs.Walk.Place
import Mathlib.Data.List.Nodup

/-!
# Names of modules

A module below the project root is named by the names on the way to it, so it has its name for itself. A module
elsewhere is named by its whole path, but with slashes in place of backslashes. A backslash is a character like
any other in the name of a file, and so two modules elsewhere can share one name, and the one that is registered
last takes the place of the other. There is no other way for two modules to share a name (`names_of_walk`).
-/

namespace ModuleBundler

open ModuleBundler.Path

/-! ### Names below the root -/

/-- Names with slashes between them. -/
theorem intercalate_names (ns : List String) :
    "/".intercalate ((ns.map Part.name).map Part.text) = String.ofList (spellParts (ns.map .name)) := by
  induction ns with
  | nil => rfl
  | cons s ns ih =>
    cases ns with
    | nil => simp [spellParts, Part.text]
    | cons t ns =>
      have hspell := spellParts_names_cons s (List.cons_ne_nil t ns)
      simp only [List.map_cons] at ih hspell ⊢
      rw [String.intercalate_cons_cons, ih, hspell]
      apply String.toList_inj.mp
      simp [Part.text]

theorem body_ofParts_names {ns : List String} (h : Names ns) : (ofParts (ns.map .name)).body = ns.map .name := by
  unfold body ofParts
  rw [String.toList_ofList]
  by_cases hns : ns = []
  · subst hns
    rfl
  · rw [segments_spellParts h hns, filterMap_ofSegment_names h]

/-- A module below the root has the names on the way to it for a name. -/
theorem moduleName_along {rs ns : List String} (hr : Names rs) (hn : Names ns) :
    moduleName (along (rs ++ ns)) (along rs) = (ofParts (ns.map .name)).text := by
  unfold moduleName
  rw [below?_along hr hn]
  exact intercalate_names ns

/-! ### Names elsewhere -/

theorem moduleName_of_not_isWithin {p root : Path} (h : p.isWithin root = false) :
    moduleName p root = withSlashes p.text := by
  unfold isWithin at h
  unfold moduleName below?
  simp [h]

theorem isAbsolute_withSlashes {p : Path} (h : p.isAbsolute = true) :
    (⟨withSlashes p.text⟩ : Path).isAbsolute = true := by
  unfold isAbsolute withSlashes at *
  cases hp : p.text.toList with
  | nil => simp [hp] at h
  | cons c cs =>
    rw [hp, List.head?_cons, beq_iff_eq, Option.some.injEq] at h
    simp [h]

theorem withSlashes_of_notMem {s : String} (h : '\\' ∉ s.toList) : withSlashes s = s := by
  have hmap : s.toList.map (fun c => if c = '\\' then '/' else c) = s.toList := by
    refine (List.map_congr_left fun c hc => if_neg ?_).trans (List.map_id s.toList)
    rintro rfl
    exact h hc
  unfold withSlashes
  rw [hmap, String.ofList_toList]

/-! ### Names of places -/

/-- Whether two paths lie elsewhere and differ by nothing but slashes and backslashes. -/
def Clash (root p q : Path) : Prop :=
  p.isWithin root = false ∧ q.isWithin root = false ∧ withSlashes p.text = withSlashes q.text

instance (root p q : Path) : Decidable (Clash root p q) := inferInstanceAs (Decidable (_ ∧ _))

/-- The names of a module below the root and of one elsewhere differ: one begins with a slash. -/
theorem moduleName_ne {root p q : Path} (hr : root.IsPlace) (hp : p.IsPlace) (hq : q.IsPlace)
    (hwp : p.isWithin root = true) (hwq : q.isWithin root = false) : moduleName p root ≠ moduleName q root := by
  obtain ⟨rs, hrs, rfl⟩ := isPlace_iff.mp hr
  obtain ⟨ps, hps, rfl⟩ := isPlace_iff.mp hp
  obtain ⟨ns, rfl⟩ := (isWithin_along hps hrs).mp hwp
  have hns := (names_append.mp hps).2
  rw [moduleName_along hrs hns, moduleName_of_not_isWithin hwq]
  intro he
  have habs := isAbsolute_withSlashes hq.absolute
  rw [← he, isAbsolute_ofParts_names hns] at habs
  cases habs

/-- Two modules share a name if they are one module, or if they lie elsewhere and differ by backslashes. -/
theorem moduleName_eq_iff {root p q : Path} (hr : root.IsPlace) (hp : p.IsPlace) (hq : q.IsPlace) :
    moduleName p root = moduleName q root ↔ p = q ∨ Clash root p q := by
  cases hwp : p.isWithin root <;> cases hwq : q.isWithin root
  · rw [moduleName_of_not_isWithin hwp, moduleName_of_not_isWithin hwq]
    constructor
    · exact fun h => .inr ⟨hwp, hwq, h⟩
    · rintro (rfl | ⟨-, -, h⟩)
      · rfl
      · exact h
  · refine iff_of_false (moduleName_ne hr hq hp hwq hwp).symm ?_
    rintro (rfl | ⟨-, h, -⟩)
    · rw [hwp] at hwq
      cases hwq
    · rw [hwq] at h
      cases h
  · refine iff_of_false (moduleName_ne hr hp hq hwp hwq) ?_
    rintro (rfl | ⟨h, -, -⟩)
    · rw [hwp] at hwq
      cases hwq
    · rw [hwp] at h
      cases h
  · constructor
    · intro h
      obtain ⟨rs, hrs, rfl⟩ := isPlace_iff.mp hr
      obtain ⟨ps, hps, rfl⟩ := isPlace_iff.mp hp
      obtain ⟨qs, hqs, rfl⟩ := isPlace_iff.mp hq
      obtain ⟨ns, rfl⟩ := (isWithin_along hps hrs).mp hwp
      obtain ⟨ms, rfl⟩ := (isWithin_along hqs hrs).mp hwq
      have hns := (names_append.mp hps).2
      have hms := (names_append.mp hqs).2
      rw [moduleName_along hrs hns, moduleName_along hrs hms] at h
      have hbody := congrArg (fun s => (⟨s⟩ : Path).body) h
      rw [body_ofParts_names hns, body_ofParts_names hms, map_name_inj] at hbody
      exact .inl (by rw [hbody])
    · rintro (rfl | ⟨h, -, -⟩)
      · rfl
      · rw [hwp] at h
        cases h

/-! ### Names in a bundle -/

theorem quoted_injective : Function.Injective quoted := fun _ _ h =>
  Option.some.inj (Json.string.inj (Json.print_injective h))

/-- **Modules that share a name.** Two files that a walk finds have the same name if and only if both lie outside
the project root and their paths differ by nothing but slashes and backslashes. So every module is registered under
a name of its own, unless a backslash stands in the path of a file outside the root. -/
theorem names_of_walk (store : FileStore) {options : Options} {entry root : Path} {report : Report}
    (hv : options.validate = .ok ()) (hroot : projectRoot store.view options = .ok root) (hr : root.IsPlace)
    (hf : store.files.get? top = none) (hw : walk store.view options entry = .ok report) :
    (∀ p ∈ report.dependencies.paths, ∀ q ∈ report.dependencies.paths,
      moduleName p root = moduleName q root ↔ p = q ∨ Clash root p q) ∧
    ((∀ p ∈ report.dependencies.paths, p.isWithin root = false → '\\' ∉ p.text.toList) →
      (report.dependencies.paths.map fun p => quoted (moduleName p root)).Nodup) := by
  have hplace : ∀ p ∈ report.dependencies.paths, p.IsPlace := by
    intro p hp
    cases hentry : entryPath store.view options entry with
    | error e => simp [walk, explore, hentry] at hw
    | ok e =>
      rw [(agrees_walk hw hentry).paths] at hp
      obtain ⟨m, hm, rfl⟩ := List.mem_map.mp hp
      exact isPlace_of_mem_meetings (FileStore.rootIsNoFile hf) (isExtension_of_validate hv)
        (isPlace_of_entryPath hroot hr hentry) hm
  have hiff : ∀ p ∈ report.dependencies.paths, ∀ q ∈ report.dependencies.paths,
      moduleName p root = moduleName q root ↔ p = q ∨ Clash root p q :=
    fun p hp q hq => moduleName_eq_iff hr (hplace p hp) (hplace q hq)
  refine ⟨hiff, fun hb => ?_⟩
  have hnodup : report.dependencies.paths.Nodup :=
    report.dependencies.distinct.imp fun h he => h (congrArg parts he)
  refine hnodup.map_on ?_
  intro p hp q hq h
  rcases (hiff p hp q hq).mp (quoted_injective h) with rfl | ⟨hwp, hwq, htext⟩
  · rfl
  · rw [withSlashes_of_notMem (hb p hp hwp), withSlashes_of_notMem (hb q hq hwq)] at htext
    exact congrArg Path.mk htext

/-- Files on both sides of the root of the project, where no name holds a backslash. -/
def bothSides : FileStore where
  workingDirectory := ⟨"/app"⟩
  files :=
    [(⟨"/app/index.js"⟩, "require('./lib/a');require('../lib/a');".toUTF8),
      (⟨"/app/lib/a.js"⟩, "1".toUTF8), (⟨"/lib/a.js"⟩, "2".toUTF8)]

theorem names_of_walk_bothSides : ∃ report, walk bothSides.view {} ⟨"index.js"⟩ = .ok report ∧
    report.dependencies.paths = [⟨"/app/index.js"⟩, ⟨"/app/lib/a.js"⟩, ⟨"/lib/a.js"⟩] ∧
    ¬ Clash ⟨"/app"⟩ ⟨"/app/lib/a.js"⟩ ⟨"/lib/a.js"⟩ ∧
    (report.dependencies.paths.map fun p => quoted (moduleName p ⟨"/app"⟩)).Nodup := by
  have hpaths : (walk bothSides.view {} ⟨"index.js"⟩).map (·.dependencies.paths) =
      .ok [⟨"/app/index.js"⟩, ⟨"/app/lib/a.js"⟩, ⟨"/lib/a.js"⟩] := by decide +kernel
  obtain ⟨report, hw, hpaths⟩ := exists_report_of_map hpaths
  have hroot : projectRoot bothSides.view {} = .ok ⟨"/app"⟩ := by decide
  obtain ⟨-, hnodup⟩ := names_of_walk bothSides (by decide) hroot (by decide) (by decide) hw
  refine ⟨report, hw, hpaths, by decide, hnodup ?_⟩
  rw [hpaths]
  decide

/-- Two files outside the root, one of them with a backslash in its name. -/
def twoSpellings : FileStore where
  workingDirectory := ⟨"/app"⟩
  files :=
    [(⟨"/app/index.js"⟩, "require('/lib/a\\b.js');require('/lib/a/b.js');".toUTF8),
      (⟨"/lib/a\\b.js"⟩, "1".toUTF8), (⟨"/lib/a/b.js"⟩, "2".toUTF8)]

/-- A file at the root of the file system. What it refers to by a relative path has no directory before it. -/
def fileAtTop : FileStore where
  workingDirectory := ⟨"/app"⟩
  files := [(top, "require('./x.js');require('/app/x.js');".toUTF8), (⟨"/app/x.js"⟩, "1".toUTF8)]

/-- Modules that share a name: outside the root, and where a file stands at the root of the file system. -/
theorem moduleName_eq_of_ne :
    ({} : Options).validate = .ok () ∧
    (∃ report, projectRoot twoSpellings.view {} = .ok ⟨"/app"⟩ ∧
      walk twoSpellings.view {} ⟨"index.js"⟩ = .ok report ∧
      report.dependencies.paths = [⟨"/app/index.js"⟩, ⟨"/lib/a\\b.js"⟩, ⟨"/lib/a/b.js"⟩] ∧
      moduleName ⟨"/lib/a\\b.js"⟩ ⟨"/app"⟩ = moduleName ⟨"/lib/a/b.js"⟩ ⟨"/app"⟩) ∧
    ∃ report, projectRoot fileAtTop.view {} = .ok ⟨"/app"⟩ ∧ walk fileAtTop.view {} top = .ok report ∧
      report.dependencies.paths = [top, ⟨"x.js"⟩, ⟨"/app/x.js"⟩] ∧
      moduleName ⟨"x.js"⟩ ⟨"/app"⟩ = moduleName ⟨"/app/x.js"⟩ ⟨"/app"⟩ := by
  have hspellings : (walk twoSpellings.view {} ⟨"index.js"⟩).map (·.dependencies.paths) =
      .ok [⟨"/app/index.js"⟩, ⟨"/lib/a\\b.js"⟩, ⟨"/lib/a/b.js"⟩] := by decide +kernel
  have htop : (walk fileAtTop.view {} top).map (·.dependencies.paths) =
      .ok [top, ⟨"x.js"⟩, ⟨"/app/x.js"⟩] := by decide +kernel
  obtain ⟨report, hw, hpaths⟩ := exists_report_of_map hspellings
  obtain ⟨report', hw', hpaths'⟩ := exists_report_of_map htop
  exact ⟨by decide, ⟨report, by decide, hw, hpaths, by decide⟩, report', by decide, hw', hpaths', by decide⟩

end ModuleBundler
