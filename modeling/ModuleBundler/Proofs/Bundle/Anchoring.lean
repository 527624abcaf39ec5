import ModuleBundler.Proofs.Bundle.Names
import ModuleBundler.Proofs.Path.Anchor
import ModuleBundler.Proofs.Walk.Account

/-!
# Names lead back to modules

The project root, the place of a relative entry and the name of a module are worked out apart from one another, each
with a cleaning of its own. They fit together all the same: below the root a name is a proper relative path, and
joined to the root it gives the module back; and an entry that stays below the root is named by what it is cleaned to,
wherever the root lies (`names_and_entries_agree`).

What carries the proof is that all three come down to names, one below the other, and that joining such names to a
place puts them behind the names of the place (`along_join_ofParts`).
-/

namespace ModuleBundler

open ModuleBundler.Path

/-! ### The project root -/

/-- As seen from an absolute working directory the project root is a place, however it is spelled. -/
theorem exists_projectRoot {files : Files} {directory : Path} (options : Options)
    (hd : files.workingDirectory = .ok directory) (ha : directory.isAbsolute = true) :
    ∃ root, projectRoot files options = .ok root ∧ root.IsPlace := by
  unfold projectRoot
  rw [hd]
  cases options.root with
  | none => exact ⟨_, rfl, isPlace_clean ha⟩
  | some root =>
    cases hr : root.isAbsolute with
    | true => exact ⟨_, by simp [hr], isPlace_clean hr⟩
    | false => exact ⟨_, by simp [hr, Except.map], isPlace_clean_join ha root⟩

/-! ### Names below the root -/

/-- A module strictly below the root is named by the names on the way to it, of which there is at least one. -/
theorem exists_names_below {root p : Path} (hr : root.IsPlace) (hp : p.IsPlace) (hw : p.isWithin root = true)
    (hne : p ≠ root) : ∃ ns, Names ns ∧ ns ≠ [] ∧ (⟨moduleName p root⟩ : Path) = ofParts (ns.map .name) ∧
      root.join ⟨moduleName p root⟩ = p := by
  obtain ⟨rs, hrs, rfl⟩ := isPlace_iff.mp hr
  obtain ⟨ps, hps, rfl⟩ := isPlace_iff.mp hp
  obtain ⟨ns, rfl⟩ := (isWithin_along hps hrs).mp hw
  have hns := (names_append.mp hps).2
  have hnil : ns ≠ [] := by
    rintro rfl
    exact hne (by rw [List.append_nil])
  have hname : (⟨moduleName (along (rs ++ ns)) (along rs)⟩ : Path) = ofParts (ns.map .name) :=
    congrArg Path.mk (moduleName_along hrs hns)
  exact ⟨ns, hns, hnil, hname, by rw [hname, along_join_ofParts hrs hns hnil]⟩

/-- The segments of names that are spelled one after the other are these names. -/
theorem segments_ofParts_names {ns : List String} (h : Names ns) (hne : ns ≠ []) :
    segments (ofParts (ns.map .name)).text.toList = ns.map String.toList := by
  rw [ofParts, String.toList_ofList, segments_spellParts h hne]

/-! ### Entries below the root -/

/-- A path that begins with a step up has this step for its first segment. -/
theorem head?_segments_up (rest : List Part) :
    (segments (ofParts (.up :: rest)).text.toList).head? = some ['.', '.'] := by
  rw [ofParts, String.toList_ofList]
  cases rest with
  | nil => decide
  | cons part rest =>
    have hspell : spellParts (.up :: part :: rest) = ['.', '.'] ++ '/' :: spellParts (part :: rest) := rfl
    have hup : segments ['.', '.'] = [['.', '.']] := by decide
    rw [hspell, segments_append_slash, hup]
    rfl

/-- A relative path that neither says nothing nor leads up is cleaned to the names that it leads down to. -/
theorem clean_eq_ofParts {e : Path} (he : e.isAbsolute = false) (hdot : e.clean ≠ ⟨"."⟩)
    (hup : (segments e.clean.text.toList).head? ≠ some ['.', '.']) :
    (way e.body).ups = 0 ∧ (way e.body).down ≠ [] ∧ e.clean = ofParts ((way e.body).down.map .name) := by
  have hparts := cleanParts_of_relative he
  cases hu : (way e.body).ups with
  | succ ups =>
    rw [hu, List.replicate_succ, List.cons_append] at hparts
    have hclean : e.clean = ofParts (.up :: (List.replicate ups .up ++ (way e.body).down.map .name)) := by
      rw [clean, hparts]
    rw [hclean, head?_segments_up] at hup
    exact absurd rfl hup
  | zero =>
    rw [hu, List.replicate_zero, List.nil_append] at hparts
    cases hdown : (way e.body).down with
    | nil =>
      rw [hdown] at hparts
      exact absurd (by rw [clean, hparts]; rfl) hdot
    | cons s ns =>
      rw [hdown] at hparts
      exact ⟨rfl, List.cons_ne_nil s ns, by rw [clean, hparts]; rfl⟩

/-- **An entry that stays below the root** is found at the root joined with what the entry is cleaned to, and this is
its name. -/
theorem entry_below {root e : Path} (hr : root.IsPlace) (he : e.isAbsolute = false) (hdot : e.clean ≠ ⟨"."⟩)
    (hup : (segments e.clean.text.toList).head? ≠ some ['.', '.']) :
    (root.join e).clean = root.join e.clean ∧ moduleName (root.join e.clean) root = e.clean.text := by
  obtain ⟨rs, hrs, rfl⟩ := isPlace_iff.mp hr
  obtain ⟨hups, hne, hclean⟩ := clean_eq_ofParts he hdot hup
  have hns := names_way_body e
  have hjoin := along_join_ofParts hrs hns hne
  rw [hclean, hjoin]
  refine ⟨?_, moduleName_along hrs hns⟩
  rw [(clean_join_along hrs he).1, hups, Nat.sub_zero, List.take_length]

/-- **Names lead back to modules, and entries lead to their names.** As seen from any absolute working directory, and
for any root in the options, the project root is known and is a clean absolute path. Every clean absolute path strictly
below it has a name that is not empty, does not begin with a slash and has no empty segment and none of dots, and the
name joined to the root is the path. Every relative entry whose cleaned form is neither a dot nor begins with two dots
is walked from the root joined with the cleaned form, and this form is its name. -/
theorem names_and_entries_agree (files : Files) (options : Options) {directory : Path}
    (hd : files.workingDirectory = .ok directory) (ha : directory.isAbsolute = true) :
    ∃ root, projectRoot files options = .ok root ∧ root.IsPlace ∧
      (∀ p : Path, p.IsPlace → p.isWithin root = true → p ≠ root →
        moduleName p root ≠ "" ∧ (⟨moduleName p root⟩ : Path).isAbsolute = false ∧
          (∀ segment ∈ segments (moduleName p root).toList,
            segment ≠ [] ∧ segment ≠ ['.'] ∧ segment ≠ ['.', '.']) ∧
          root.join ⟨moduleName p root⟩ = p) ∧
      ∀ entry : Path, entry.isAbsolute = false → entry.clean ≠ ⟨"."⟩ →
        (segments entry.clean.text.toList).head? ≠ some ['.', '.'] →
        entryPath files options entry = .ok (root.join entry.clean) ∧
          moduleName (root.join entry.clean) root = entry.clean.text ∧
          ∀ report, walk files options entry = .ok report → ∀ first, report.dependencies.entry? = some first →
            first = root.join entry.clean := by
  obtain ⟨root, hroot, hplace⟩ := exists_projectRoot options hd ha
  refine ⟨root, hroot, hplace, fun p hp hw hne => ?_, fun entry he hdot hup => ?_⟩
  · obtain ⟨ns, hns, hnil, hname, hjoin⟩ := exists_names_below hplace hp hw hne
    have hsegments : segments (moduleName p root).toList = ns.map String.toList := by
      rw [← segments_ofParts_names hns hnil, ← hname]
    have hproper : ∀ segment ∈ segments (moduleName p root).toList,
        segment ≠ [] ∧ segment ≠ ['.'] ∧ segment ≠ ['.', '.'] := by
      intro segment hs
      rw [hsegments] at hs
      obtain ⟨s, hm, rfl⟩ := List.mem_map.mp hs
      exact (isName_iff.mp (hns s hm)).2
    refine ⟨fun hempty => ?_, by rw [hname, isAbsolute_ofParts_names hns], hproper, hjoin⟩
    -- an empty name would have one empty segment
    refine (hproper [] ?_).1 rfl
    rw [hempty]
    decide
  · obtain ⟨hclean, hname⟩ := entry_below hplace he hdot hup
    have hentry : entryPath files options entry = .ok (root.join entry.clean) := by
      simp only [entryPath, he, hroot, hclean, Bool.false_eq_true, if_false]
    refine ⟨hentry, hname, fun report hw first hfirst => ?_⟩
    obtain ⟨p, hp, hpaths⟩ := entry_of_walk hw
    obtain rfl : root.join entry.clean = p := Except.ok.inj (hentry.symm.trans hp)
    unfold DependencySet.entry? at hfirst
    rcases hpaths with hnone | ⟨-, hhead⟩
    · rw [hnone] at hfirst
      cases hfirst
    · exact Option.some.inj (hfirst.symm.trans hhead)

theorem names_and_entries_agree_detours :
    let files : Files := { (FileStore.empty top).view with workingDirectory := .ok ⟨"//srv/./x/"⟩ }
    let options : Options := { root := some ⟨"../app//pkg/."⟩ }
    projectRoot files options = .ok ⟨"/srv/app/pkg"⟩ ∧
      (⟨"/srv/app/pkg"⟩ : Path).join ⟨moduleName ⟨"/srv/app/pkg/lib/.a\\b"⟩ ⟨"/srv/app/pkg"⟩⟩ =
        ⟨"/srv/app/pkg/lib/.a\\b"⟩ ∧
      entryPath files options ⟨"./src/../lib//a.js"⟩ = .ok ((⟨"/srv/app/pkg"⟩ : Path).join ⟨"lib/a.js"⟩) ∧
      moduleName ((⟨"/srv/app/pkg"⟩ : Path).join ⟨"lib/a.js"⟩) ⟨"/srv/app/pkg"⟩ = "lib/a.js" := by
  intro files options
  have hd : files.workingDirectory = .ok ⟨"//srv/./x/"⟩ := rfl
  obtain ⟨root, hroot, -, hbelow, hentry⟩ := names_and_entries_agree files options hd (by decide)
  have hwhere : projectRoot files options = .ok ⟨"/srv/app/pkg"⟩ := by decide
  obtain rfl := Except.ok.inj (hwhere.symm.trans hroot)
  obtain ⟨-, -, -, hjoin⟩ := hbelow ⟨"/srv/app/pkg/lib/.a\\b"⟩ (by decide) (by decide) (by decide)
  obtain ⟨hpath, hname, -⟩ := hentry ⟨"./src/../lib//a.js"⟩ (by decide) (by decide) (by decide)
  have hclean : (⟨"./src/../lib//a.js"⟩ : Path).clean = ⟨"lib/a.js"⟩ := by decide
  rw [hclean] at hpath hname
  exact ⟨hwhere, hjoin, hpath, hname⟩

end ModuleBundler
