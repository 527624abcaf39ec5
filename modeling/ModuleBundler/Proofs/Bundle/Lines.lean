import ModuleBundler.Proofs.Bundle.Markers
import ModuleBundler.Proofs.Minify.Beside

/-!
# Minified bundles for a server

A bundle for a server is its modules one below the other. When it is minified, each module comes to what it would
come to on its own, and between two of them stands a space or nothing, as the items at the seam need it
(`minify_line_by_line`). A literal or a block comment that a module leaves open would swallow the modules below
it, so the modules must not do that; a line comment ends with its line.
-/

namespace ModuleBundler

open Minify

/-- Without markers the parts of a bundle for a server are the sources of its modules. -/
theorem bundleParts_of_server {options : Options} (ht : options.target = .server)
    (hc : options.comments = false) (root entry : Path) {paths : List Path} {sources : List String}
    (hl : paths.length = sources.length) :
    bundleParts options root entry (paths.zip sources) = sources := by
  have hw : options.target.wrapsModules = false := by rw [ht]; rfl
  have htext : ∀ m ∈ paths.zip sources, moduleText options root m.1 m.2 = m.2 := by
    intro m _
    unfold moduleText
    simp only [hc, hw, Bool.false_eq_true, if_false]
  rw [bundleParts_of_not_wraps hw, List.map_congr_left htext]
  exact List.map_snd_zip hl.ge

/-- A minified bundle for a server is its minified modules side by side. -/
theorem code_bundleOf_server {options : Options} (hm : options.minify = true) (ht : options.target = .server)
    (root entry : Path) {dependencies : DependencySet} {sources : List String}
    (hl : dependencies.paths.length = sources.length) (hs : ∀ s ∈ sources, Tidy s.toList)
    (hn : options.comments = true → ∀ p ∈ dependencies.paths, '\n' ∉ (moduleName p root).toList) :
    (bundleOf options root entry dependencies sources).code = (sources.map minify).foldl beside "" := by
  have hfold : minify ("\n".intercalate sources) = (sources.map minify).foldl beside "" :=
    minify_lines_fold (fun s h => hs s (List.mem_of_mem_dropLast h)) fun s h => (hs s h).openMark_notMem
  have hplain : (bundleOf { options with comments := false } root entry dependencies sources).code =
      (sources.map minify).foldl beside "" := by
    have hparts : bundleParts { options with comments := false } root entry (dependencies.paths.zip sources) =
        sources := @bundleParts_of_server { options with comments := false } ht rfl root entry _ _ hl
    show finish { options with comments := false } ("\n".intercalate
      (bundleParts { options with comments := false } root entry (dependencies.paths.zip sources))) = _
    rw [hparts, finish, if_pos hm, hfold]
  cases hc : options.comments with
  | false => rwa [← hc] at hplain
  | true =>
    -- the markers come to nothing
    have hscript : options.target.wrapsModules = true →
        Sealed (prelude options.extensions (rootName root)).toList := by
      rw [ht]
      exact fun h => absurd h (by decide)
    have hmodules : ∀ m ∈ dependencies.paths.zip sources,
        Sealed m.2.toList ∧ '\n' ∉ (moduleName m.1 root).toList := fun m h =>
      ⟨(hs m.2 (List.of_mem_zip h).2).isSealed, hn hc m.1 (List.of_mem_zip h).1⟩
    have hmarkers := bundleOf_markers hm entry dependencies hscript hmodules
    rw [← hc] at hmarkers
    exact (congrArg Bundle.code hmarkers).trans hplain

/-- **Texts are minified line by line.** Let a text leave no literal and no block comment open, and let no opening
mark be among its characters of code, and the same of the opening mark for a text below it. Then the two are
minified one by one, with a space between them if the last item of the one and the first item of the other must
not stand side by side, and with nothing between them if one of them comes to nothing. The same goes for the
modules of a bundle for a server, from the first one to the last one; where each one has its marker, no name may
have a line feed in it. -/
theorem minify_line_by_line :
    (∀ a b : String, Tidy a.toList → .item (.char openMark) ∉ tokens b.toList →
      minify (a ++ "\n" ++ b) = minify a ++ seam a b ++ minify b ∧
        seam (minify a) (minify b) = seam a b ∧
        (minify a = "" ↔ items a.toList = []) ∧ (minify b = "" ↔ items b.toList = [])) ∧
    (∀ texts : List String, (∀ t ∈ texts.dropLast, Tidy t.toList) →
      (∀ t ∈ texts, .item (.char openMark) ∉ tokens t.toList) →
      minify ("\n".intercalate texts) = (texts.map minify).foldl beside "") ∧
    ∀ (files : Files) (options : Options) (root entry : Path) (dependencies : DependencySet)
      (sources : List String), projectRoot files options = .ok root → options.minify = true →
      options.target = .server →
      List.Forall₂ (fun p source => files.source p = .ok source) dependencies.paths sources →
      (∀ source ∈ sources, Tidy source.toList) →
      (options.comments = true → ∀ p ∈ dependencies.paths, '\n' ∉ (moduleName p root).toList) →
      ∃ bundle, (assemble files options entry dependencies).1 = .ok bundle ∧
        bundle.code = (sources.map minify).foldl beside "" := by
  refine ⟨fun a b ha hb => ⟨minify_append_line ha hb, seam_minify ha.openMark_notMem hb,
    minify_eq_empty_iff ha.openMark_notMem, minify_eq_empty_iff hb⟩, fun _ => minify_lines_fold, ?_⟩
  intro files options root entry dependencies sources hroot hm ht hsources hs hn
  refine ⟨bundleOf options root entry dependencies sources, ?_,
    code_bundleOf_server hm ht root entry hsources.length_eq hs hn⟩
  unfold assemble
  rw [hroot]
  simp only [readModules_of_sources hsources]
  rfl

/-- Modules that end in a line comment, begin with a literal, come to nothing, and have signs at their seams. -/
def signs : FileStore :=
  ((((FileStore.empty ⟨"/app"⟩).insert ⟨"a.js"⟩ "let a = 1 // it's".toUTF8).insert ⟨"b.js"⟩
    "\"b\" +".toUTF8).insert ⟨"c.js"⟩ "// nothing".toUTF8).insert ⟨"d.js"⟩ "+ a".toUTF8

/-- The modules of `signs`. -/
def signPaths : DependencySet := .ofList [⟨"/app/a.js"⟩, ⟨"/app/b.js"⟩, ⟨"/app/c.js"⟩, ⟨"/app/d.js"⟩]

theorem minify_line_by_line_signs :
    minify ("return 'a' // it's" ++ "\n" ++ "x / 2") = minify "return 'a' // it's" ++ " " ++ minify "x / 2" ∧
      minify ("\n".intercalate ["f ( )", "\x7b \x7d /* \" */", "`open"]) =
        ["f()", "\x7b\x7d", "`open"].foldl beside "" ∧
      ∃ bundle, (assemble signs.view { minify := true, target := .server, comments := true } ⟨"/app/a.js"⟩
          signPaths).1 = .ok bundle ∧
        bundle.code = ["let a=1", "\"b\"+", "", "+a"].foldl beside "" ∧
        bundle.code = "let a=1 \"b\"+ +a" := by
  have hroot : projectRoot signs.view { minify := true, target := .server, comments := true } = .ok ⟨"/app"⟩ := by
    decide +kernel
  have hsources : List.Forall₂ (fun p source => signs.view.source p = .ok source) signPaths.paths
      ["let a = 1 // it's", "\"b\" +", "// nothing", "+ a"] :=
    .cons (by decide +kernel) (.cons (by decide +kernel) (.cons (by decide +kernel) (.cons (by decide +kernel) .nil)))
  obtain ⟨htwo, hlines, hbundle⟩ := minify_line_by_line
  obtain ⟨bundle, hok, hcode⟩ := hbundle signs.view { minify := true, target := .server, comments := true } _
    ⟨"/app/a.js"⟩ signPaths _ hroot rfl rfl hsources (by decide +kernel) (fun _ => by decide +kernel)
  have hminified : ["let a = 1 // it's", "\"b\" +", "// nothing", "+ a"].map minify =
      ["let a=1", "\"b\"+", "", "+a"] := by decide +kernel
  refine ⟨?_, ?_, bundle, hok, ?_, ?_⟩
  · have hseam : seam "return 'a' // it's" "x / 2" = " " := by decide +kernel
    rw [← hseam]
    exact (htwo _ _ (by decide +kernel) (by decide +kernel)).1
  · have hmap : ["f ( )", "\x7b \x7d /* \" */", "`open"].map minify = ["f()", "\x7b\x7d", "`open"] := by decide +kernel
    rw [← hmap]
    exact hlines _ (by decide +kernel) (by decide +kernel)
  · rw [hcode, hminified]
  · rw [hcode, hminified]
    decide +kernel

end ModuleBundler
