import ModuleBundler.Bundle.Script
import ModuleBundler.Options.Validation
import ModuleBundler.Proofs.Json.Literal
import ModuleBundler.Proofs.Options.RoundTrip
import ModuleBundler.Proofs.Text.Search

/-!
# Where the root stands in a wrapped bundle

The script that a wrapped bundle begins with has one place for the root. When it is filled in, it is looked for
in the extensions too (`prelude_eq_fillIn`). A JSON text holds a word of plain letters only where one of its
strings holds it (`occursIn_literalChars`). So the script is the same for every root, but for the literal in this
place, unless an extension has the place in its name (`prelude_eq`). Then, and only then, are the extensions not what the
script says (`prelude_embeds`).
-/

namespace ModuleBundler

open Text

namespace Json

/-! ### Words in JSON texts -/

/-- A character that stands in a string literal only where the string holds it. -/
structure IsPlain (c : Char) : Prop where
  itself : escapeChar c = [c]
  only : ∀ d, c ∈ escapeChar d → d = c

/-- A character that no escape is written with stands only for itself. -/
theorem isPlain_of_escape_free {c : Char} (he : escapeChar c = [c]) (hb : c ≠ '\\') (hu : c ≠ 'u')
    (hs : shortEscape? c = none) (hh : hexValue? c = none) : IsPlain c := by
  refine ⟨he, fun d hd => ?_⟩
  rcases escapeChar_cases d with ⟨e, -, hse, hc⟩ | ⟨hn, hc⟩ | ⟨-, -, -, hc⟩ <;> rw [hc] at hd
  · simp only [List.mem_cons, List.not_mem_nil, or_false] at hd
    rcases hd with rfl | rfl
    · exact absurd rfl hb
    · rw [hs] at hse
      cases hse
  · have hdigit : ∀ n < 16, c ≠ hexDigit n := by
      rintro n hn rfl
      rw [hexValue?_hexDigit n hn] at hh
      cases hh
    have hzero : c ≠ '0' := hdigit 0 (by decide)
    have h₁ := hdigit (d.toNat / 16) (by omega)
    have h₂ := hdigit (d.toNat % 16) (by omega)
    simp [hb, hu, hzero, h₁, h₂] at hd
  · exact (List.mem_singleton.mp hd).symm

section

variable {pattern : List Char} (hp : ∀ c ∈ pattern, IsPlain c)

include hp

theorem isPrefixOf_escaped (s : List Char) :
    pattern.isPrefixOf (s.flatMap escapeChar) = pattern.isPrefixOf s := by
  induction pattern generalizing s with
  | nil => simp
  | cons p pattern ih =>
    obtain ⟨hplain, hrest⟩ := List.forall_mem_cons.mp hp
    cases s with
    | nil => rfl
    | cons c s =>
      rw [List.flatMap_cons]
      by_cases hc : c = p
      · subst hc
        rw [hplain.itself, List.singleton_append]
        simp [List.isPrefixOf, ih hrest]
      · -- what is written for another character does not begin with this one
        have hne : p ∉ escapeChar c := fun h => hc (hplain.only c h)
        have hfirst : ∃ d ds, escapeChar c = d :: ds := by
          rcases escapeChar_cases c with ⟨_, -, -, h⟩ | ⟨-, h⟩ | ⟨-, -, -, h⟩ <;> exact ⟨_, _, h⟩
        obtain ⟨d, ds, hd⟩ := hfirst
        rw [hd, List.mem_cons, not_or] at hne
        simp [List.isPrefixOf, hd, beq_eq_false_iff_ne.mpr hne.1, beq_eq_false_iff_ne.mpr (Ne.symm hc)]

theorem occursIn_escaped (hne : pattern ≠ []) (s : List Char) :
    occursIn pattern (s.flatMap escapeChar) = occursIn pattern s := by
  induction s with
  | nil => rfl
  | cons c s ih =>
    rw [List.flatMap_cons]
    by_cases hc : c ∈ pattern
    · have hprefix := isPrefixOf_escaped hp (c :: s)
      rw [List.flatMap_cons, (hp c hc).itself, List.singleton_append] at hprefix
      rw [(hp c hc).itself, List.singleton_append, occursIn, hprefix, ih, occursIn]
    · have hskip : ∀ ds, (∀ d ∈ ds, d ∉ pattern) →
          occursIn pattern (ds ++ s.flatMap escapeChar) = occursIn pattern (s.flatMap escapeChar) := by
        intro ds hds
        induction ds with
        | nil => rfl
        | cons d ds ihd =>
          obtain ⟨hd, hds⟩ := List.forall_mem_cons.mp hds
          rw [List.cons_append, occursIn_cons hd hne, ihd hds]
      rw [hskip _ fun d hd hm => hc ((hp d hm).only c hd ▸ hm), ih, occursIn_cons hc hne]

/-- A word of plain characters stands in a literal when it stands in the string. -/
theorem occursIn_literalChars (hne : pattern ≠ []) (hq : '\x22' ∉ pattern) (s : List Char) :
    occursIn pattern (literalChars s) = occursIn pattern s := by
  have hnil : occursIn pattern [] = false := by simpa [occursIn] using hne
  unfold literalChars
  rw [occursIn_cons hq hne, occursIn_append_cons hq hne, occursIn_escaped hp hne, hnil, Bool.or_false]

end

end Json

theorem toList_quoted (s : String) : (quoted s).toList = Json.literalChars s.toList := by
  rw [quoted, Json.print, String.toList_ofList]
  rfl

/-! ### The place of the root -/

/-- The place for the root in the script. -/
abbrev rootSlot : List Char := "__ROOT__".toList

theorem isPlain_of_mem_rootSlot : ∀ c ∈ rootSlot, Json.IsPlain c := by
  intro c hc
  have hslot : rootSlot = ['_', '_', 'R', 'O', 'O', 'T', '_', '_'] := by decide
  have hcases : c = '_' ∨ c = 'R' ∨ c = 'O' ∨ c = 'T' := by
    rw [hslot] at hc
    simp only [List.mem_cons, List.not_mem_nil, or_false] at hc
    grind
  rcases hcases with rfl | rfl | rfl | rfl <;>
    exact Json.isPlain_of_escape_free (by decide) (by decide) (by decide) (by decide) (by decide)

/-- A character that is not in the place for the root parts a text in which the place can stand. -/
theorem occursIn_slot_append_cons {c : Char} (hc : c ∉ rootSlot) (xs ys : List Char) :
    occursIn rootSlot (xs ++ c :: ys) = (occursIn rootSlot xs || occursIn rootSlot ys) :=
  occursIn_append_cons hc (by decide) xs ys

theorem occursIn_slot_literalChars (t : String) :
    occursIn rootSlot (Json.literalChars t.toList) = occursIn rootSlot t.toList :=
  Json.occursIn_literalChars isPlain_of_mem_rootSlot (by decide) (by decide) t.toList

/-- The elements of an array of texts after the first one. -/
theorem occursIn_elementChars (texts : List String) (xs : List Char) :
    occursIn rootSlot (xs ++ Json.elementChars (texts.map Json.ofText)) =
      (occursIn rootSlot xs || texts.any fun t => occursIn rootSlot t.toList) := by
  induction texts generalizing xs with
  | nil =>
    rw [List.map_nil, Json.elementChars, occursIn_slot_append_cons (by decide)]
    rfl
  | cons t texts ih =>
    rw [List.map_cons, Json.elementChars, occursIn_slot_append_cons (by decide)]
    show (occursIn rootSlot xs || occursIn rootSlot (Json.literalChars t.toList ++ _)) = _
    rw [ih, occursIn_slot_literalChars, List.any_cons]

/-- An array of texts has the place for the root where one of the texts has it. -/
theorem occursIn_textsToJson (texts : List String) :
    occursIn rootSlot (textsToJson texts).print.toList = texts.any fun t => occursIn rootSlot t.toList := by
  unfold textsToJson Json.ofList Json.print
  rw [String.toList_ofList]
  cases texts with
  | nil => decide
  | cons t texts =>
    rw [List.map_cons, Json.chars, occursIn_cons (by decide) (by decide)]
    show occursIn rootSlot (Json.literalChars t.toList ++ _) = _
    rw [occursIn_elementChars, occursIn_slot_literalChars, List.any_cons]

/-- The script up to the place for the extensions. -/
def preludeStart : String :=
  "var __modules__ = \x7b\x7d;\nvar __module_cache__ = \x7b\x7d;\nvar __extensions__ ="

/-- The script up to the literal for the root. -/
def preludeBefore (extensions : List String) : String :=
  preludeStart ++ " " ++ (textsToJson extensions).print ++ ";\nvar __root__ = "

/-- The script after the literal for the root. -/
def preludeAfter : String := "\n".intercalate (";" :: preludeLines.drop 4)

/-- Each place has a letter that stands in no line after the places. -/
theorem places_not_in_preludeLines :
    ∀ l ∈ preludeLines.drop 4, ∃ cs, l = String.ofList cs ∧ 'R' ∉ cs ∧ 'X' ∉ cs := by
  -- line by line, each as the list of its characters
  repeat' first
    | exact List.forall_mem_nil _
    | refine List.forall_mem_cons.mpr ⟨⟨_, rfl, by decide, by decide⟩, ?_⟩

theorem places_not_in_preludeAfter : 'R' ∉ preludeAfter.toList ∧ 'X' ∉ preludeAfter.toList := by
  have hlines : ∀ l ∈ ";" :: preludeLines.drop 4, 'R' ∉ l.toList ∧ 'X' ∉ l.toList := by
    refine List.forall_mem_cons.mpr ⟨by decide, fun l hl => ?_⟩
    obtain ⟨cs, rfl, hr, hx⟩ := places_not_in_preludeLines l hl
    rw [String.toList_ofList]
    exact ⟨hr, hx⟩
  rw [preludeAfter, String.toList_intercalate]
  exact ⟨not_mem_intercalate (by decide) (List.forall_mem_map.mpr fun l hl => (hlines l hl).1),
    not_mem_intercalate (by decide) (List.forall_mem_map.mpr fun l hl => (hlines l hl).2)⟩

/-- The script with `array` and `literal` in its places. -/
def preludeWith (array literal : String) : String :=
  "\n".intercalate (preludeLines.take 2 ++
    ["var __extensions__ = " ++ array ++ ";", "var __root__ = " ++ literal ++ ";"] ++ preludeLines.drop 4)

theorem preludeWith_eq (array literal : String) : preludeWith array literal =
    preludeStart ++ " " ++ array ++ ";\nvar __root__ = " ++ literal ++ preludeAfter := by
  obtain ⟨line, lines, hlines⟩ : ∃ line lines, preludeLines.drop 4 = line :: lines := ⟨_, _, rfl⟩
  have hafter : preludeAfter = ";" ++ "\n" ++ "\n".intercalate (line :: lines) := by
    rw [preludeAfter, hlines, String.intercalate_cons_cons]
  have hwith : preludeWith array literal = "\n".intercalate ("var __modules__ = \x7b\x7d;" ::
      "var __module_cache__ = \x7b\x7d;" :: ("var __extensions__ = " ++ array ++ ";") ::
      ("var __root__ = " ++ literal ++ ";") :: line :: lines) := by
    rw [← hlines]
    rfl
  have hstart : "var __modules__ = \x7b\x7d;" ++ "\n" ++ ("var __module_cache__ = \x7b\x7d;" ++ "\n" ++
      "var __extensions__ = ") = preludeStart ++ " " := by
    decide
  have hmiddle : ";" ++ "\n" ++ "var __root__ = " = ";\nvar __root__ = " := by decide
  rw [hwith, hafter, ← hstart, ← hmiddle]
  simp only [String.intercalate_cons_cons, String.append_assoc]

/-- The template has one place for the extensions, and after it one place for the root. -/
theorem preludeTemplate_eq : preludeTemplate.toList = preludeStart.toList ++ ' ' ::
    ("__EXTENSIONS__".toList ++ (";\nvar __root__ =".toList ++ ' ' :: (rootSlot ++ preludeAfter.toList))) := by
  have hplaces : preludeTemplate = preludeWith "__EXTENSIONS__" "__ROOT__" := rfl
  have hspace : " ".toList = [' '] := rfl
  have hmiddle : ";\nvar __root__ = " = ";\nvar __root__ =" ++ " " := by decide
  rw [hplaces, preludeWith_eq, hmiddle]
  simp only [String.toList_append, List.append_assoc, hspace, List.cons_append, List.nil_append]

/-- **The script once its places are filled in**, first the one for the extensions and then the one for the root,
which is looked for in the extensions as well. -/
theorem prelude_eq_fillIn (extensions : List String) (rootName : String) :
    prelude extensions rootName =
      preludeWith (fillIn "__ROOT__" (quoted rootName) (textsToJson extensions).print) (quoted rootName) := by
  obtain ⟨hr, hx⟩ := places_not_in_preludeAfter
  -- each place has a letter that no other part of the script has
  have hstart : 'X' ∉ preludeStart.toList ∧ 'R' ∉ preludeStart.toList := by decide
  have hmiddle : ";\nvar __root__ =".toList = ';' :: "\nvar __root__ =".toList ∧
      'R' ∉ "\nvar __root__ =".toList := by decide
  have hslot : 'X' ∉ rootSlot ∧ 'R' ∈ rootSlot := by decide
  have hrest : 'X' ∉ ";\nvar __root__ =".toList ++ ' ' :: (rootSlot ++ preludeAfter.toList) := by
    rw [List.mem_append, List.mem_cons, List.mem_append]
    simp [hslot.1, hx]
  have hfilled : (fillIn "__EXTENSIONS__" (textsToJson extensions).print preludeTemplate).toList =
      preludeStart.toList ++ ' ' :: ((textsToJson extensions).print.toList ++
        ';' :: ("\nvar __root__ =".toList ++ ' ' :: (rootSlot ++ preludeAfter.toList))) := by
    unfold fillIn
    rw [String.toList_ofList, preludeTemplate_eq, replaceAll_once (by decide) (by decide) _
      (not_occursIn_of_not_mem (c := 'X') (by decide) hstart.1)
      (not_occursIn_of_not_mem (c := 'X') (by decide) hrest), hmiddle.1, List.cons_append]
  refine String.toList_inj.mp ?_
  unfold prelude
  rw [preludeWith_eq]
  -- the blanks and the semicolon part the script into texts that are filled in on their own
  rw [fillIn, String.toList_ofList, hfilled, replaceAll_append_cons (by decide),
    replaceAll_append_cons (by decide), replaceAll_append_cons (by decide), replaceAll_append (by decide),
    replaceAll_of_not_occursIn _ (not_occursIn_of_not_mem hslot.2 hstart.2),
    replaceAll_of_not_occursIn _ (not_occursIn_of_not_mem hslot.2 hmiddle.2),
    replaceAll_of_not_occursIn _ (not_occursIn_of_not_mem hslot.2 hr)]
  simp [fillIn]

/-- The extensions stay as they are when the root is filled in, unless one of them has the place for it. -/
theorem fillIn_textsToJson_eq_iff (extensions : List String) (rootName : String) :
    fillIn "__ROOT__" (quoted rootName) (textsToJson extensions).print = (textsToJson extensions).print ↔
      ∀ ext ∈ extensions, occursIn rootSlot ext.toList = false := by
  have hliteral : Json.literalChars rootName.toList ≠ [] := List.cons_ne_nil _ _
  have hfirst : (Json.literalChars rootName.toList).head? ≠ rootSlot.head? := by
    rw [Json.literalChars, List.head?_cons]
    decide
  rw [← String.toList_inj, fillIn, String.toList_ofList, toList_quoted,
    replaceAll_eq_self_iff (by decide) hliteral hfirst, occursIn_textsToJson, List.any_eq_false]
  simp only [Bool.not_eq_true]

/-- **The script depends on the root in one literal only.** -/
theorem prelude_eq {extensions : List String}
    (h : ∀ ext ∈ extensions, occursIn rootSlot ext.toList = false) (rootName : String) :
    prelude extensions rootName = preludeBefore extensions ++ quoted rootName ++ preludeAfter := by
  rw [prelude_eq_fillIn, (fillIn_textsToJson_eq_iff extensions rootName).mpr h, preludeWith_eq]
  rfl

theorem preludeWith_inj {array array' literal : String} :
    preludeWith array literal = preludeWith array' literal ↔ array = array' := by
  refine ⟨fun h => ?_, fun h => by rw [h]⟩
  rw [preludeWith_eq, preludeWith_eq, ← String.toList_inj] at h
  simp only [String.toList_append, List.append_cancel_right_eq, List.append_cancel_left_eq] at h
  exact String.toList_inj.mp h

/-- **What the script says of extensions and root.** In the lines for them stand the array of the extensions, in
which the place for the root is filled in too, and the literal of the root. So the array is there as it is exactly
where no extension has the place for the root in its name. The array and the literal spell the extensions and
the root. -/
theorem prelude_embeds (extensions : List String) (rootName : String) :
    prelude extensions rootName =
        preludeWith (fillIn "__ROOT__" (quoted rootName) (textsToJson extensions).print) (quoted rootName) ∧
      (prelude extensions rootName = preludeWith (textsToJson extensions).print (quoted rootName) ↔
        ∀ ext ∈ extensions, occursIn rootSlot ext.toList = false) ∧
      (Json.parse? (textsToJson extensions).print).bind (Json.asList? Json.asText?) = some extensions ∧
      (Json.parse? (quoted rootName)).bind Json.asText? = some rootName := by
  refine ⟨prelude_eq_fillIn extensions rootName, ?_, ?_, ?_⟩
  · rw [prelude_eq_fillIn, preludeWith_inj, fillIn_textsToJson_eq_iff]
  · rw [Json.parse?_print, Option.bind_some, asList?_textsToJson]
  · rw [quoted, Json.parse?_print, Option.bind_some, Json.asText?_ofText]

/-- An extension that is valid, and has the place for the root in its name: the line for the extensions is no
array any more. -/
theorem prelude_rewrites_extension :
    ({ extensions := [".__ROOT__"] } : Options).validate = .ok () ∧
      prelude [".__ROOT__"] "/app" ≠ preludeWith (textsToJson [".__ROOT__"]).print (quoted "/app") ∧
      prelude [".__ROOT__"] "/app" = preludeWith "[\".\"/app\"\"]" (quoted "/app") ∧
      Json.parse? "[\".\"/app\"\"]" = none := by
  obtain ⟨hline, hparse⟩ :
      fillIn "__ROOT__" (quoted "/app") (textsToJson [".__ROOT__"]).print = "[\".\"/app\"\"]" ∧
        Json.parse? "[\".\"/app\"\"]" = none := by
    decide +kernel
  refine ⟨by decide, ?_, ?_, hparse⟩
  · rw [prelude_eq_fillIn, ne_eq, preludeWith_inj, hline]
    decide
  · rw [prelude_eq_fillIn, hline]

end ModuleBundler
