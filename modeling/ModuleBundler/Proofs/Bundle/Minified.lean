import ModuleBundler.Proofs.Bundle.Outcome
import ModuleBundler.Proofs.Minify.Seam
import ModuleBundler.Proofs.Relocation.Bundle

/-!
# Minified bundles

A bundle is minified as one text. Its modules do not mix in spite of that (`code_assemble_minified`): each
registration holds what its module is minified to on its own, if no module leaves a literal or a block comment
open. A line comment at the end of a module ends with the line, a name is quoted in such a way that no quote in
it closes the literal, and brackets and semicolons stand at the seams.
-/

namespace ModuleBundler

open Minify Text

/-! ### Literals of the script -/

namespace Json

theorem inside_escapeChar (c : Char) {rest : List Char} (h : Inside '\x22' rest) :
    Inside '\x22' (escapeChar c ++ rest) := by
  have hhex : ∀ n < 16, hexDigit n ≠ '\x22' ∧ hexDigit n ≠ '\\' := by decide
  rcases escapeChar_cases c with ⟨e, -, -, hc⟩ | ⟨hn, hc⟩ | ⟨hq, hb, -, hc⟩ <;> rw [hc]
  · exact .escaped h
  · have h₁ := hhex (c.toNat / 16) (by omega)
    have h₂ := hhex (c.toNat % 16) (by omega)
    exact .escaped (.plain (by decide) (by decide) (.plain (by decide) (by decide)
      (.plain h₁.1 h₁.2 (.plain h₂.1 h₂.2 h))))
  · exact .plain hq hb h

/-- What stands between the quotes of a literal does not close it. -/
theorem inside_escaped (s : List Char) : Inside '\x22' (s.flatMap escapeChar) := by
  induction s with
  | nil => exact .nil
  | cons c s ih =>
    rw [List.flatMap_cons]
    exact inside_escapeChar c ih

/-- A literal is one piece, whatever it spells. -/
theorem pieces_literalChars (s rest : List Char) :
    pieces (literalChars s ++ rest) = .literal (literalChars s) :: pieces rest := by
  have h := pieces_literal (q := '\x22') (by decide) (inside_escaped s) rest
  rw [literalChars, ← h]
  simp

theorem separate_literalChars (s : List Char) : Separate (literalChars s) := by
  refine ⟨[.literal (literalChars s)], List.forall_mem_singleton.mpr ?_, pieces_literalChars s⟩
  exact isTidy_literal (by decide) (inside_escaped s)

theorem separate_elementChars (texts : List String) : Separate (elementChars (texts.map ofText)) := by
  induction texts with
  | nil => exact .chars (by decide)
  | cons t texts ih =>
    have hcomma : Separate [','] := .chars (by decide)
    rw [List.map_cons, elementChars]
    exact hcomma.append ((separate_literalChars t.toList).append ih)

end Json

theorem separate_textsToJson (texts : List String) : Separate (textsToJson texts).print.toList := by
  unfold textsToJson Json.ofList Json.print
  rw [String.toList_ofList]
  cases texts with
  | nil => exact .chars (by decide)
  | cons t texts =>
    have hbracket : Separate ['['] := .chars (by decide)
    rw [List.map_cons, Json.chars]
    exact hbracket.append ((Json.separate_literalChars t.toList).append (Json.separate_elementChars texts))

/-- A literal between two texts, of which the first one has no gap, stays where it is. -/
theorem minifyChars_literal {before after : List Char} (hg : before.any isBlank = false)
    (hb : before.all isOrdinary = true) (ha : after.all isOrdinary = true) (s : List Char) :
    minifyChars (before ++ (Json.literalChars s ++ after)) =
      before ++ (Json.literalChars s ++ spell (some '_') false (after.map fun c => tokenOf (.code c))) := by
  have ht : Tidy (before ++ (Json.literalChars s ++ after)) :=
    (Separate.chars hb).tidy_append ((Json.separate_literalChars s).tidy_append (tidy_of_ordinary ha))
  have htokens : before.map (tokenOf ∘ Piece.code) = before.map fun c => .item (.char c) := by
    refine List.map_congr_left fun c hc => ?_
    rw [Function.comp, tokenOf, if_neg (List.any_eq_false.mp hg c hc)]
  rw [ht.minifyChars_eq, pieces_ordinary hb, Json.pieces_literalChars, pieces_of_ordinary ha,
    List.map_append, List.map_map, htokens, List.map_cons, tokenOf, spell_chars_item, List.map_map]
  rfl

/-! ### The script before the modules -/

theorem tidy_preludeLines : ∀ l ∈ preludeLines.drop 4, ∃ cs, l = String.ofList cs ∧ Tidy cs := by
  -- line by line, each as the list of its characters
  repeat' first
    | exact List.forall_mem_nil _
    | refine List.forall_mem_cons.mpr ⟨⟨_, rfl, by decide +kernel⟩, ?_⟩

/-- The script is tidy, and it ends with a brace. -/
theorem tidy_preludeAfter : Tidy preludeAfter.toList ∧ EndsApart preludeAfter.toList := by
  obtain ⟨lines, hlines⟩ : ∃ lines, preludeLines.drop 4 = lines ++ ["\x7d"] :=
    ⟨(preludeLines.drop 4).dropLast, rfl⟩
  have htidy : ∀ l ∈ (";" :: preludeLines.drop 4).map String.toList, Tidy l := by
    rw [List.forall_mem_map]
    refine List.forall_mem_cons.mpr ⟨tidy_of_ordinary (by decide), fun l hl => ?_⟩
    obtain ⟨cs, rfl, h⟩ := tidy_preludeLines l hl
    rwa [String.toList_ofList]
  have hbrace : EndsApart "\x7d".toList :=
    endsApart_of_ordinary (by decide) (c := '\x7d') (by decide) (by decide)
  rw [preludeAfter, String.toList_intercalate]
  refine ⟨tidy_lines htidy, ?_⟩
  rw [hlines, ← List.cons_append, List.map_append, List.forall_mem_append] at htidy
  rw [hlines, ← List.cons_append, List.map_append]
  exact endsApart_lines hbrace htidy.1

theorem tidy_prelude {extensions : List String}
    (h : ∀ ext ∈ extensions, occursIn rootSlot ext.toList = false) (rootName : String) :
    Tidy (prelude extensions rootName).toList ∧ EndsApart (prelude extensions rootName).toList := by
  have hstart : Separate preludeStart.toList := .chars (by decide)
  have hspace : Separate " ".toList := .chars (by decide)
  have hmiddle : Separate ";\nvar __root__ = ".toList := .chars (by decide)
  have hbefore : Separate (preludeBefore extensions ++ quoted rootName).toList := by
    unfold preludeBefore
    simp only [String.toList_append, toList_quoted]
    exact (((hstart.append hspace).append (separate_textsToJson extensions)).append hmiddle).append
      (Json.separate_literalChars rootName.toList)
  obtain ⟨htidy, hends⟩ := tidy_preludeAfter
  rw [prelude_eq h, String.toList_append]
  exact ⟨hbefore.tidy_append htidy, hbefore.endsApart_append hends⟩

/-! ### Registrations -/

/-- What stands before the module in a registration. -/
def registrationHead (name : String) : List Char :=
  "__register__(".toList ++
    (Json.literalChars name.toList ++ ", function (module, exports, require) \x7b".toList)

/-- A registration has three parts, one below the other. -/
theorem toList_registration (name source : String) : (registration name source).toList =
    registrationHead name ++ '\n' :: (source.toList ++ '\n' :: "\x7d);".toList) := by
  have hopen : ", function (module, exports, require) \x7b\n".toList =
      ", function (module, exports, require) \x7b".toList ++ ['\n'] := by decide
  have hclose : "\n\x7d);".toList = '\n' :: "\x7d);".toList := by decide
  unfold registration registrationHead
  simp only [String.toList_append, toList_quoted, hopen, hclose, List.append_assoc, List.cons_append,
    List.nil_append]

section

variable {name source : String}

theorem tidy_registrationHead (name : String) :
    Tidy (registrationHead name) ∧ EndsApart (registrationHead name) := by
  have hcall : Separate "__register__(".toList := .chars (by decide)
  have hbefore := hcall.append (Json.separate_literalChars name.toList)
  have hfunction : ", function (module, exports, require) \x7b".toList.all isOrdinary = true := by decide
  unfold registrationHead
  rw [← List.append_assoc]
  exact ⟨hbefore.tidy_append (tidy_of_ordinary hfunction),
    hbefore.endsApart_append (endsApart_of_ordinary hfunction (c := '\x7b') (by decide) (by decide))⟩

theorem tidy_registration (h : Tidy source.toList) (name : String) :
    Tidy (registration name source).toList ∧ EndsApart (registration name source).toList := by
  obtain ⟨hhead, -⟩ := tidy_registrationHead name
  have htail : "\x7d);".toList.all isOrdinary = true := by decide
  have hends : EndsApart "\x7d);".toList := endsApart_of_ordinary htail (c := ';') (by decide) (by decide)
  rw [toList_registration]
  exact ⟨hhead.append_line (h.append_line (tidy_of_ordinary htail)),
    .append_line hhead (.append_line h hends)⟩

/-- A registration is minified around its module. -/
theorem minify_registration (h : Tidy source.toList) (name : String) :
    minify (registration name source) = "__register__(" ++ quoted name ++
      ",function(module,exports,require)\x7b" ++ minify source ++ "\x7d);" := by
  have hfunction : spell (some '_') false
      (", function (module, exports, require) \x7b".toList.map fun c => tokenOf (.code c)) =
        ",function(module,exports,require)\x7b".toList := by decide
  have hhead : minifyChars (registrationHead name) = "__register__(".toList ++
      (Json.literalChars name.toList ++ ",function(module,exports,require)\x7b".toList) := by
    unfold registrationHead
    rw [minifyChars_literal (by decide) (by decide) (by decide), hfunction]
  have htail : "\x7d);".toList.all isOrdinary = true := by decide
  have hbegins : BeginsApart "\x7d);".toList :=
    beginsApart_of_ordinary htail (c := '\x7d') (by decide) (by decide)
  have hclose : minifyChars "\x7d);".toList = "\x7d);".toList := by
    rw [minifyChars_of_ordinary htail]
    decide
  -- above the module the brace ends the line before the seam, below it a brace begins the line after it
  obtain ⟨hopen, hends⟩ := tidy_registrationHead name
  refine String.toList_inj.mp ?_
  rw [minify, String.toList_ofList, toList_registration,
    minifyChars_append_line hopen (h.append_line (tidy_of_ordinary htail)) (.inl hends),
    minifyChars_append_line h (tidy_of_ordinary htail) (.inr hbegins), hhead, hclose]
  simp only [minify, String.toList_append, String.toList_ofList, toList_quoted, List.append_assoc]

end

/-- The call for the entry is left as it is. -/
theorem minify_entryCall (name : String) :
    Tidy (entryCall name).toList ∧ minify (entryCall name) = entryCall name := by
  have hchars : (entryCall name).toList =
      "require(".toList ++ (Json.literalChars name.toList ++ ");".toList) := by
    unfold entryCall
    simp only [String.toList_append, toList_quoted, List.append_assoc]
  have hcall : Separate "require(".toList := .chars (by decide)
  have hend : spell (some '_') false (");".toList.map fun c => tokenOf (.code c)) = ");".toList := by decide
  refine ⟨?_, String.toList_inj.mp ?_⟩
  · rw [hchars]
    exact hcall.tidy_append ((Json.separate_literalChars _).tidy_append (tidy_of_ordinary (by decide)))
  · rw [minify, String.toList_ofList, hchars, minifyChars_literal (by decide) (by decide) (by decide), hend]

/-! ### Bundles -/

/-- Registrations and the call below them are minified one by one. -/
theorem minify_bundleParts {options : Options} (hc : options.comments = false)
    (hw : options.target.wrapsModules = true)
    (hext : ∀ ext ∈ options.extensions, occursIn rootSlot ext.toList = false) (root entry : Path)
    {modules : List (Path × String)} (hm : ∀ m ∈ modules, Tidy m.2.toList) :
    minify ("\n".intercalate (bundleParts options root entry modules)) =
      minify (prelude options.extensions (rootName root)) ++
        String.join (modules.map fun m => "__register__(" ++ quoted (moduleName m.1 root) ++
          ",function(module,exports,require)\x7b" ++ minify m.2 ++ "\x7d);") ++
        "require(" ++ quoted (moduleName entry root) ++ ");" := by
  have htext : ∀ m : Path × String,
      moduleText options root m.1 m.2 = registration (moduleName m.1 root) m.2 := by
    intro m
    unfold moduleText
    simp only [hc, hw, if_true, Bool.false_eq_true, if_false]
  obtain ⟨htidy, hcall⟩ := minify_entryCall (moduleName entry root)
  have hlines : ∀ l ∈ prelude options.extensions (rootName root) ::
      modules.map fun m => registration (moduleName m.1 root) m.2, Tidy l.toList ∧ EndsApart l.toList := by
    refine List.forall_mem_cons.mpr ⟨tidy_prelude hext _, List.forall_mem_map.mpr fun m h => ?_⟩
    exact tidy_registration (hm m h) _
  have hregistrations : (modules.map fun m => registration (moduleName m.1 root) m.2).map minify =
      modules.map fun m => "__register__(" ++ quoted (moduleName m.1 root) ++
        ",function(module,exports,require)\x7b" ++ minify m.2 ++ "\x7d);" := by
    rw [List.map_map]
    exact List.map_congr_left fun m h => minify_registration (hm m h) _
  rw [bundleParts_of_wraps hw, List.map_congr_left fun m _ => htext m, minify_lines htidy hlines,
    List.map_cons, String.join_cons, hregistrations, hcall, entryCall]
  simp only [String.append_assoc]

/-- **Modules of a minified bundle do not mix.** Where a bundle with minified modules is wanted, and no module
leaves a literal or a block comment open or has an opening mark in its code, the code is the minified script,
and then for each module in order its registration around what the module is minified to on its own, and then
the call for the entry. -/
theorem code_assemble_minified {files : Files} {options : Options} {root : Path}
    (hroot : projectRoot files options = .ok root) (hminify : options.minify = true)
    (hcomments : options.comments = false) (hwraps : options.target.wrapsModules = true)
    (hext : ∀ ext ∈ options.extensions, occursIn rootSlot ext.toList = false)
    {dependencies : DependencySet} {sources : List String}
    (hsources : List.Forall₂ (fun p source => files.source p = .ok source ∧ Tidy source.toList)
      dependencies.paths sources) (entry : Path) :
    ∃ bundle, (assemble files options entry dependencies).1 = .ok bundle ∧
      bundle.code = minify (prelude options.extensions (rootName root)) ++
        String.join ((dependencies.paths.zip sources).map fun m =>
          "__register__(" ++ quoted (moduleName m.1 root) ++ ",function(module,exports,require)\x7b" ++
            minify m.2 ++ "\x7d);") ++
        "require(" ++ quoted (moduleName entry root) ++ ");" := by
  have hread := readModules_of_sources (hsources.imp fun _ _ h => h.1)
  have htidy : ∀ m ∈ dependencies.paths.zip sources, Tidy m.2.toList := by
    intro m hm
    exact (List.forall₂_zip hsources hm).2
  refine ⟨bundleOf options root entry dependencies sources, ?_, ?_⟩
  · unfold assemble
    rw [hroot]
    simp only [hread]
    rfl
  · show finish options
      ("\n".intercalate (bundleParts options root entry (dependencies.paths.zip sources))) = _
    rw [finish, if_pos hminify]
    exact minify_bundleParts hcomments hwraps hext root entry htidy

/-- A module with a line comment at its end, one whose name has a quote, and one without any code. -/
def seams : FileStore :=
  (((FileStore.empty ⟨"/app"⟩).insert ⟨"a.js"⟩ "go ( 1 ) // it's".toUTF8).insert ⟨"b\".js"⟩
    "x = `//` /* ' */".toUTF8).insert ⟨"c.js"⟩ "// nothing".toUTF8

/-- The modules of `seams`. -/
def seamPaths : DependencySet := .ofList [⟨"/app/a.js"⟩, ⟨"/app/b\".js"⟩, ⟨"/app/c.js"⟩]

theorem code_assemble_minified_seams :
    ∃ bundle, (assemble seams.view { minify := true } ⟨"/app/a.js"⟩ seamPaths).1 = .ok bundle ∧
      bundle.code = minify (prelude ({} : Options).extensions "/app") ++
        String.join ["__register__(\"a.js\",function(module,exports,require)\x7bgo(1)\x7d);",
          "__register__(\"b\\\".js\",function(module,exports,require)\x7bx=`//`\x7d);",
          "__register__(\"c.js\",function(module,exports,require)\x7b\x7d);"] ++
        "require(" ++ "\"a.js\"" ++ ");" := by
  have hroot : projectRoot seams.view { minify := true } = .ok ⟨"/app"⟩ := by decide +kernel
  have hsources : List.Forall₂ (fun p source => seams.view.source p = .ok source ∧ Tidy source.toList)
      seamPaths.paths ["go ( 1 ) // it's", "x = `//` /* ' */", "// nothing"] :=
    .cons (by decide +kernel) (.cons (by decide +kernel) (.cons (by decide +kernel) .nil))
  obtain ⟨bundle, hok, hcode⟩ := code_assemble_minified hroot rfl rfl rfl (by decide +kernel) hsources
    ⟨"/app/a.js"⟩
  have hrootName : rootName ⟨"/app"⟩ = "/app" := by decide +kernel
  have hentry : quoted (moduleName ⟨"/app/a.js"⟩ ⟨"/app"⟩) = "\"a.js\"" := by decide +kernel
  have hmodules : (seamPaths.paths.zip ["go ( 1 ) // it's", "x = `//` /* ' */", "// nothing"]).map (fun m =>
      "__register__(" ++ quoted (moduleName m.1 ⟨"/app"⟩) ++ ",function(module,exports,require)\x7b" ++
        minify m.2 ++ "\x7d);") =
      ["__register__(\"a.js\",function(module,exports,require)\x7bgo(1)\x7d);",
        "__register__(\"b\\\".js\",function(module,exports,require)\x7bx=`//`\x7d);",
        "__register__(\"c.js\",function(module,exports,require)\x7b\x7d);"] := by
    decide +kernel
  refine ⟨bundle, hok, ?_⟩
  rw [hcode, hrootName, hmodules, hentry]

end ModuleBundler
