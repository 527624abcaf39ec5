import ModuleBundler.Proofs.Bundle.Minified
import ModuleBundler.Proofs.Minify.Idempotence

/-!
# Markers in minified bundles

The line that names a file before its module is a comment. In a minified bundle nothing is left of it, and the
bundle is the same as without it (`assemble_markers`). For the marker leaves no more than a gap at the beginning
of a line, where there is a gap already or nothing that it could part. Two things are needed for this: what
stands above the marker leaves nothing open, so that the marker is read as a comment, and the name of the file
has no line feed in it, so that the comment ends where the marker does.
-/

namespace ModuleBundler

open Text

namespace Minify

/-! ### Settled tokens -/

/-- **Only the settled tokens of a source count**, when it is minified. -/
theorem minifyChars_congr {a b : List Char}
    (h : settle none false (tokens a) = settle none false (tokens b)) : minifyChars a = minifyChars b := by
  have hrestore : ∀ cs, minifyChars cs =
      restore ((settle none false (tokens cs)).filterMap Token.literal?)
        (spell none false (numberFrom 0 (settle none false (tokens cs)))) := by
    intro cs
    rw [minifyChars_eq_restore, literal?_settle, ← settle_numberFrom, spell_settle]
  rw [hrestore, hrestore, h]

/-- There is nothing to part at the beginning of a text. -/
theorem settle_none (ts : List Token) : ∀ gap gap' : Bool, settle none gap ts = settle none gap' ts := by
  induction ts with
  | nil => intro gap gap'; rfl
  | cons t ts ih =>
    intro gap gap'
    cases t with
    | gap => rfl
    | item i => rw [settle, settle, Option.any_none, Bool.and_false, Bool.and_false]

/-- What settles alike after everything settles alike after `ts`. -/
theorem settle_append_congr {us us' : List Token}
    (h : ∀ (left : Option Char) (gap : Bool), settle left gap us = settle left gap us') (ts : List Token) :
    ∀ (left : Option Char) (gap : Bool), settle left gap (ts ++ us) = settle left gap (ts ++ us') := by
  induction ts with
  | nil => exact h
  | cons t ts ih =>
    intro left gap
    cases t with
    | gap => exact ih left true
    | item i => rw [List.cons_append, List.cons_append, settle, settle, ih]

/-! ### Lines -/

/-- Sealed texts that come to the same on lines of their own, whatever stands on the lines around them. -/
structure SameLine (a b : List Char) : Prop where
  sealed_left : Sealed a
  sealed_right : Sealed b
  settle_eq : ∀ (left : Option Char) (rest : List Token),
    settle left true (tokens a ++ rest) = settle left true (tokens b ++ rest)

theorem SameLine.refl {a : List Char} (h : Sealed a) : SameLine a a := ⟨h, h, fun _ _ => rfl⟩

/-- A line comment above a text comes to nothing. -/
theorem sameLine_lineComment {comment body : List Char} (hn : '\n' ∉ comment) (hb : Sealed body) :
    SameLine ('/' :: '/' :: (comment ++ '\n' :: body)) body := by
  have hline : pieces ('\n' :: body) = .code '\n' :: pieces body :=
    pieces_code (by decide) fun e => absurd e (by decide)
  have hpieces : pieces ('/' :: '/' :: (comment ++ '\n' :: body)) =
      .comment ('/' :: '/' :: comment) :: .code '\n' :: pieces body := by
    rw [pieces_lineComment hn (.inr rfl), hline]
  refine ⟨?_, hb, fun left rest => ?_⟩
  · unfold Sealed
    rw [hpieces, List.forall_mem_cons, List.forall_mem_cons]
    exact ⟨rfl, rfl, hb⟩
  · have hfeed : tokenOf (.code '\n') = .gap := by decide
    rw [tokens, hpieces, List.map_cons, List.map_cons, hfeed]
    rfl

theorem settle_lines {as bs : List (List Char)} (h : List.Forall₂ SameLine as bs) :
    ∀ left : Option Char, settle left true (tokens (['\n'].intercalate as)) =
      settle left true (tokens (['\n'].intercalate bs)) := by
  induction h with
  | nil => intro left; rfl
  | @cons a b as bs hab hrest ih =>
    intro left
    cases hrest with
    | nil => simpa using hab.settle_eq left []
    | @cons a' b' as bs =>
      rw [List.intercalate_cons_cons, List.intercalate_cons_cons, List.append_assoc, List.append_assoc]
      show settle left true (tokens (a ++ '\n' :: _)) = settle left true (tokens (b ++ '\n' :: _))
      rw [tokens_append_line hab.sealed_left, tokens_append_line hab.sealed_right, hab.settle_eq]
      -- the line feed is a gap in front of all the lines below it
      have hbelow : ∀ (left' : Option Char) (gap : Bool),
          settle left' gap (.gap :: tokens (['\n'].intercalate (a' :: as))) =
            settle left' gap (.gap :: tokens (['\n'].intercalate (b' :: bs))) := fun left' _ => ih left'
      exact settle_append_congr hbelow (tokens b) left true

/-- **Lines that come to the same** are minified to the same. -/
theorem minifyChars_lines_congr {as bs : List (List Char)} (h : List.Forall₂ SameLine as bs) :
    minifyChars (['\n'].intercalate as) = minifyChars (['\n'].intercalate bs) := by
  refine minifyChars_congr ?_
  rw [settle_none _ false true, settle_lines h, settle_none _ true false]

end Minify

open Minify

/-! ### Modules with and without markers -/

theorem sealed_prelude {extensions : List String}
    (h : ∀ ext ∈ extensions, occursIn rootSlot ext.toList = false) (rootName : String) :
    Sealed (prelude extensions rootName).toList := (tidy_prelude h rootName).1.isSealed

theorem sealed_registration {source : String} (h : Sealed source.toList) (name : String) :
    Sealed (registration name source).toList := by
  have htail : Sealed "\x7d);".toList := (tidy_of_ordinary (by decide)).isSealed
  rw [toList_registration]
  exact (tidy_registrationHead name).1.isSealed.append_line (h.append_line htail)

/-- A module comes to the same with its marker as without it, if its name has no line feed. -/
theorem sameLine_moduleText {root p : Path} {source : String} (options : Options) (h : Sealed source.toList)
    (hn : '\n' ∉ (moduleName p root).toList) :
    SameLine (moduleText { options with comments := true } root p source).toList
      (moduleText { options with comments := false } root p source).toList := by
  have hbody : ∀ body : String, Sealed body.toList →
      SameLine ("// File: " ++ moduleName p root ++ "\n" ++ body).toList body.toList := by
    intro body hb
    have hstart : "// File: ".toList = '/' :: '/' :: " File: ".toList := rfl
    have hcomment : '\n' ∉ " File: ".toList ++ (moduleName p root).toList := by
      rw [List.mem_append]
      exact not_or.mpr ⟨by decide, hn⟩
    have hfeed : "\n".toList = ['\n'] := rfl
    simp only [String.toList_append, hstart, hfeed, List.cons_append, List.append_assoc, List.nil_append]
    rw [← List.append_assoc]
    exact sameLine_lineComment hcomment hb
  unfold moduleText
  simp only [if_true, Bool.false_eq_true, if_false]
  split
  · exact hbody _ (sealed_registration h _)
  · exact hbody _ h

/-- The parts of a bundle come to the same with markers as without them. -/
theorem sameLine_bundleParts {options : Options} {root : Path} (entry : Path)
    (hscript : options.target.wrapsModules = true →
      Sealed (prelude options.extensions (rootName root)).toList)
    {modules : List (Path × String)}
    (hm : ∀ m ∈ modules, Sealed m.2.toList ∧ '\n' ∉ (moduleName m.1 root).toList) :
    List.Forall₂ SameLine
      ((bundleParts { options with comments := true } root entry modules).map String.toList)
      ((bundleParts { options with comments := false } root entry modules).map String.toList) := by
  have htexts : List.Forall₂ SameLine
      ((modules.map fun m => moduleText { options with comments := true } root m.1 m.2).map String.toList)
      ((modules.map fun m => moduleText { options with comments := false } root m.1 m.2).map String.toList) := by
    induction modules with
    | nil => exact .nil
    | cons m modules ih =>
      obtain ⟨⟨hsealed, hname⟩, hrest⟩ := List.forall_mem_cons.mp hm
      exact .cons (sameLine_moduleText options hsealed hname) (ih hrest)
  unfold bundleParts
  cases hw : options.target.wrapsModules with
  | false => exact htexts
  | true =>
    have hcall : Sealed (entryCall (moduleName entry root)).toList := (minify_entryCall _).1.isSealed
    simp only [if_true, List.map_append, List.map_cons, List.cons_append]
    exact .cons (.refl (hscript hw)) (List.rel_append htexts (.cons (.refl hcall) .nil))

/-- A minified bundle is the same with markers as without them. -/
theorem bundleOf_markers {options : Options} {root : Path} (hminify : options.minify = true) (entry : Path)
    (dependencies : DependencySet) {sources : List String}
    (hscript : options.target.wrapsModules = true →
      Sealed (prelude options.extensions (rootName root)).toList)
    (hm : ∀ m ∈ dependencies.paths.zip sources, Sealed m.2.toList ∧ '\n' ∉ (moduleName m.1 root).toList) :
    bundleOf { options with comments := true } root entry dependencies sources =
      bundleOf { options with comments := false } root entry dependencies sources := by
  have hparts := minifyChars_lines_congr (sameLine_bundleParts entry hscript hm)
  have hfeed : "\n".toList = ['\n'] := rfl
  have hcode : finish { options with comments := true } ("\n".intercalate
        (bundleParts { options with comments := true } root entry (dependencies.paths.zip sources))) =
      finish { options with comments := false } ("\n".intercalate
        (bundleParts { options with comments := false } root entry (dependencies.paths.zip sources))) := by
    rw [finish, if_pos hminify, finish, if_pos hminify, minify, minify, String.toList_intercalate,
      String.toList_intercalate, hfeed, hparts]
  simp only [bundleOf, hcode]
  rfl

/-- **Markers come to nothing in a minified bundle.** Where no module that can be read leaves a literal or a block
comment open, and the script leaves none open either, and no module has a line feed in its name, assembling gives
the same with markers as without them: the same bundle, with the same hash, or the same failure. An extension that
has the place for the root in its name is the only thing that can leave the script open (`sealed_prelude`). -/
theorem assemble_markers {files : Files} {options : Options} {dependencies : DependencySet}
    (hminify : options.minify = true)
    (hsources : ∀ p ∈ dependencies.paths, ∀ source, files.source p = .ok source → Sealed source.toList)
    (hnames : ∀ root, projectRoot files options = .ok root →
      ∀ p ∈ dependencies.paths, '\n' ∉ (moduleName p root).toList)
    (hscript : ∀ root, projectRoot files options = .ok root → options.target.wrapsModules = true →
      Sealed (prelude options.extensions (rootName root)).toList) (entry : Path) :
    assemble files { options with comments := true } entry dependencies =
      assemble files { options with comments := false } entry dependencies := by
  have hroot : ∀ comments, projectRoot files { options with comments } = projectRoot files options :=
    fun _ => rfl
  unfold assemble
  rw [hroot true, hroot false]
  cases hr : projectRoot files options with
  | error cause => rfl
  | ok root =>
    rcases sources_or_first files dependencies.paths with ⟨sources, hread⟩ | ⟨before, q, after, e, hps, hb, hq⟩
    · have hm : ∀ m ∈ dependencies.paths.zip sources,
          Sealed m.2.toList ∧ '\n' ∉ (moduleName m.1 root).toList := by
        intro m hm
        have hp : m.1 ∈ dependencies.paths := (List.of_mem_zip hm).1
        exact ⟨hsources m.1 hp m.2 (List.forall₂_zip hread hm), hnames root hr m.1 hp⟩
      simp only [readModules_of_sources hread]
      show (Except.ok _, _) = (Except.ok _, _)
      rw [bundleOf_markers hminify entry dependencies (hscript root hr) hm]
    · simp only [hps, readModules_of_first hq after hb]
      rfl

/-- Two modules with quotes in their names, and one with a line feed. -/
def oddNames : FileStore :=
  (((FileStore.empty ⟨"/app"⟩).insert ⟨"it's.js"⟩ "go ( 1 ) // done".toUTF8).insert ⟨"`.js"⟩
    "x = '//'".toUTF8).insert ⟨"a\nb.js"⟩ "go()".toUTF8

theorem assemble_markers_quotes :
    assemble oddNames.view { minify := true, comments := true } ⟨"/app/it's.js"⟩
        (.ofList [⟨"/app/it's.js"⟩, ⟨"/app/`.js"⟩]) =
      assemble oddNames.view { minify := true } ⟨"/app/it's.js"⟩
        (.ofList [⟨"/app/it's.js"⟩, ⟨"/app/`.js"⟩]) := by
  obtain ⟨hfirst, hsecond, hroot⟩ :
      (oddNames.view.source ⟨"/app/it's.js"⟩ = .ok "go ( 1 ) // done" ∧ Sealed "go ( 1 ) // done".toList ∧
        '\n' ∉ (moduleName ⟨"/app/it's.js"⟩ ⟨"/app"⟩).toList) ∧
      (oddNames.view.source ⟨"/app/`.js"⟩ = .ok "x = '//'" ∧ Sealed "x = '//'".toList ∧
        '\n' ∉ (moduleName ⟨"/app/`.js"⟩ ⟨"/app"⟩).toList) ∧
      projectRoot oddNames.view { minify := true } = .ok ⟨"/app"⟩ := by
    decide +kernel
  have hpaths : (DependencySet.ofList [⟨"/app/it's.js"⟩, ⟨"/app/`.js"⟩]).paths =
      [⟨"/app/it's.js"⟩, ⟨"/app/`.js"⟩] := by decide
  have hext : ∀ ext ∈ ({} : Options).extensions, occursIn rootSlot ext.toList = false := by decide
  refine @assemble_markers oddNames.view { minify := true } _ rfl ?_ ?_ (fun _ _ _ => sealed_prelude hext _) _
  · rw [hpaths, List.forall_mem_cons, List.forall_mem_singleton, hfirst.1, hsecond.1]
    exact ⟨fun _ h => Except.ok.inj h ▸ hfirst.2.1, fun _ h => Except.ok.inj h ▸ hsecond.2.1⟩
  · rw [hroot, hpaths]
    rintro root h
    obtain rfl := Except.ok.inj h
    exact List.forall_mem_cons.mpr ⟨hfirst.2.2, List.forall_mem_singleton.mpr hsecond.2.2⟩

/-- What stands in a name after a line feed is taken for code. -/
theorem assemble_markers_lineFeed :
    oddNames.view.source ⟨"/app/a\nb.js"⟩ = .ok "go()" ∧ Sealed "go()".toList ∧
      (assemble oddNames.view { minify := true, target := .server, comments := true } ⟨"/app/a\nb.js"⟩
        (.ofList [⟨"/app/a\nb.js"⟩])).1.map Bundle.code = .ok "b.js go()" ∧
      (assemble oddNames.view { minify := true, target := .server } ⟨"/app/a\nb.js"⟩
        (.ofList [⟨"/app/a\nb.js"⟩])).1.map Bundle.code = .ok "go()" := by
  decide +kernel

end ModuleBundler
