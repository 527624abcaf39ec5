import ModuleBundler.Proofs.Reference.Form
import Mathlib.Data.List.Chain

/-!
# Declarations and their spacing

A declaration is a keyword, a clause, `from` and a quoted specifier. Between any two of its elements there may be
blanks, and there have to be some between two words, since they would be one word otherwise (`Declaration`). Nothing
else is asked of the spacing, and the clause tells the names apart from the marks whatever it is.

The patterns ask for more. They want a blank after the keyword, before a brace and a star too, and one between a star
and `as`; the names that an import lists are to be made of the characters of names, and a specifier is not to be empty
(`Declaration.Extractable`).
-/

namespace ModuleBundler

open Text

namespace Declaration

/-! ### Elements -/

/-- The characters of a declaration that are elements on their own, or that begin one: quotes and marks. -/
def marks : List Char := ['\x27', '\x22', '*', '\x7b', '\x7d', ',']

/-- Whether `c` can stand in a word of a declaration. -/
def isWordPart (c : Char) : Bool := !isBlank c && !marks.contains c

/-- A word of a declaration. -/
structure Word where
  chars : List Char
  ne_nil : chars ≠ [] := by decide
  parts : chars.all isWordPart = true := by decide

/-- `import` -/
def Word.importWord : Word := { chars := "import".toList }

/-- `export` -/
def Word.exportWord : Word := { chars := "export".toList }

/-- `as` -/
def Word.asWord : Word := { chars := "as".toList }

/-- `from` -/
def Word.fromWord : Word := { chars := "from".toList }

@[simp] theorem Word.chars_importWord : importWord.chars = "import".toList := rfl

@[simp] theorem Word.chars_exportWord : exportWord.chars = "export".toList := rfl

@[simp] theorem Word.chars_asWord : asWord.chars = "as".toList := rfl

@[simp] theorem Word.chars_fromWord : fromWord.chars = "from".toList := rfl

/-- A specifier between two quotes of one kind. It may be empty. -/
structure Quoted where
  quote : Char
  specifier : List Char
  isQuote : declarationQuotes.contains quote = true := by decide
  inside : specifier.all (isInside declarationQuotes) = true := by decide

/-- The characters of a quoted specifier. -/
def Quoted.chars (q : Quoted) : List Char := q.quote :: (q.specifier ++ [q.quote])

/-- An element of a declaration: the blanks are between these. -/
inductive Element where
  | word (w : Word)
  | star
  | comma
  | opening
  | closing
  | quoted (q : Quoted)

namespace Element

/-- The characters of an element. -/
def chars : Element → List Char
  | word w => w.chars
  | star => ['*']
  | comma => [',']
  | opening => ['\x7b']
  | closing => ['\x7d']
  | quoted q => q.chars

/-- Whether an element is a word. -/
def isWord : Element → Bool
  | word _ => true
  | _ => false

end Element

/-! ### Clauses -/

/-- A name of a list in braces: alone, or with the name that it gets. -/
inductive Named where
  | alone (name : Word)
  | renamed (name other : Word)

/-- The elements of a name in a list. -/
def Named.elements : Named → List Element
  | alone name => [.word name]
  | renamed name other => [.word name, .word .asWord, .word other]

/-- Names with commas between them, and perhaps one after them. -/
def listed (names : List Named) (trailing : Bool) : List Element :=
  [Element.comma].intercalate (names.map Named.elements) ++ if trailing then [.comma] else []

/-- Names in braces. -/
def braced (names : List Named) (trailing : Bool) : List Element :=
  .opening :: (listed names trailing ++ [.closing])

/-- The default name of an import, if it has one, and the comma after it. -/
def beforeComma : Option Word → List Element
  | some name => [.word name, .comma]
  | none => []

/-- What a declaration says of the names that it imports or exports. -/
inductive Clause where
  /-- `import a from './x'` -/
  | importDefault (name : Word)
  /-- `import { b, c as d } from './x'`, or with a default name before the braces -/
  | importNames (default : Option Word) (names : List Named) (trailing : Bool)
  /-- `import * as a from './x'`, or with a default name before the star -/
  | importAll (default : Option Word) (name : Word)
  /-- `export * from './x'` -/
  | exportAll
  /-- `export * as a from './x'` -/
  | exportAllAs (name : Word)
  /-- `export { b, c as d } from './x'` -/
  | exportNames (names : List Named) (trailing : Bool)

namespace Clause

/-- The form of the reference that the declaration makes. -/
def kind : Clause → ReferenceKind
  | importDefault _ | importNames _ _ _ | importAll _ _ => .importFrom
  | exportAll | exportAllAs _ | exportNames _ _ => .reExport

/-- The word that the declaration begins with. -/
def keyword : Clause → Word
  | importDefault _ | importNames _ _ _ | importAll _ _ => .importWord
  | exportAll | exportAllAs _ | exportNames _ _ => .exportWord

/-- The elements between the keyword and `from`. -/
def elements : Clause → List Element
  | importDefault name => [.word name]
  | importNames default names trailing => beforeComma default ++ braced names trailing
  | importAll default name => beforeComma default ++ [.star, .word .asWord, .word name]
  | exportAll => [.star]
  | exportAllAs name => [.star, .word .asWord, .word name]
  | exportNames names trailing => braced names trailing

/-- The gaps in which the pattern asks for a blank where the declaration would not need one, the gap after the keyword
being the first one. -/
def demands : Clause → List Nat
  | exportAllAs _ => [0, 1]
  | _ => [0]

/-- Whether any word is taken for a name: between the braces of an export the pattern takes everything. -/
def takesAny : Clause → Bool
  | exportNames _ _ => true
  | _ => false

end Clause

end Declaration

/-! ### Declarations -/

open Declaration in
/-- A keyword, a clause, `from` and a quoted specifier, with blanks between any two of them. Every element stands after
its gap, and only between two words the gap cannot be empty. -/
structure Declaration where
  clause : Clause
  quoted : Quoted
  spaced : List (List Char × Element)
  elements_eq : spaced.map Prod.snd = clause.elements ++ [.word .fromWord, .quoted quoted]
  blank : ∀ p ∈ spaced, p.1.all isBlank = true
  apart : List.IsChain (fun p q => p.2.isWord = true → q.2.isWord = true → q.1 ≠ [])
    (([], .word clause.keyword) :: spaced)

namespace Declaration

/-- The text of elements with the gaps before them. -/
def spell (ps : List (List Char × Element)) : List Char := ps.flatMap fun p => p.1 ++ p.2.chars

/-- The text of a declaration. -/
def text (d : Declaration) : List Char := d.clause.keyword.chars ++ spell d.spaced

/-- The gaps of a declaration, the one after the keyword first. -/
def gaps (d : Declaration) : List (List Char) := d.spaced.map Prod.fst

/-- What the patterns ask of a declaration. -/
@[mk_iff]
structure Extractable (d : Declaration) : Prop where
  specifier : d.quoted.specifier ≠ []
  gaps : ∀ i ∈ d.clause.demands, d.gaps[i]? ≠ some []
  names : d.clause.takesAny = false → ∀ w, .word w ∈ d.clause.elements → w.chars.all isNameChar = true

/-! ### What elements look like -/

theorem Word.exists_cons (w : Word) : ∃ c cs, w.chars = c :: cs ∧ isWordPart c = true := by
  obtain ⟨c, cs, hw⟩ := List.exists_cons_of_ne_nil w.ne_nil
  exact ⟨c, cs, hw, List.all_eq_true.mp w.parts c (hw ▸ List.mem_cons_self)⟩

theorem isBlank_of_isWordPart {c : Char} (h : isWordPart c = true) : isBlank c = false := by
  simpa using (Bool.and_eq_true_iff.mp h).1

theorem not_mem_marks {c : Char} (h : isWordPart c = true) : c ∉ marks := by
  simpa using (Bool.and_eq_true_iff.mp h).2

theorem not_mem_quotes_of_isWordPart {c : Char} (h : isWordPart c = true) : c ∉ declarationQuotes := fun hq =>
  not_mem_marks h (List.mem_append_left ['*', '\x7b', '\x7d', ','] hq)

/-- In a word the characters that a clause takes are those of names. -/
theorem isClauseChar_of_isWordPart {c : Char} (h : isWordPart c = true) : isClauseChar c = isNameChar c := by
  have hblank := isBlank_of_isWordPart h
  have hmarks := not_mem_marks h
  simp only [marks, List.mem_cons, List.not_mem_nil, or_false, not_or] at hmarks
  simp [isClauseChar, isNameChar, hblank, hmarks, Bool.beq_eq_decide_eq]

theorem Quoted.head?_chars (q : Quoted) {after : List Char} : (q.chars ++ after).head?.any isBlank = false := by
  have hquotes : declarationQuotes.any isBlank = false := by decide
  have hquote : isBlank q.quote = false := by
    simpa using List.any_eq_false.mp hquotes q.quote (List.contains_iff_mem.mp q.isQuote)
  simpa [Quoted.chars] using hquote

/-- No element begins with a blank. -/
theorem Element.head?_chars (e : Element) (cs : List Char) : (e.chars ++ cs).head?.any isBlank = false := by
  cases e with
  | word w =>
    obtain ⟨c, cs', hw, hc⟩ := w.exists_cons
    simpa [Element.chars, hw] using isBlank_of_isWordPart hc
  | quoted q => exact q.head?_chars
  | _ => rfl

theorem Element.chars_ne_nil (e : Element) : e.chars ≠ [] := by
  cases e with
  | word w => exact w.ne_nil
  | _ => exact List.cons_ne_nil _ _

theorem Element.not_mem_quotes {e : Element} (h : ∀ q, e ≠ .quoted q) {c : Char} (hc : c ∈ e.chars) :
    c ∉ declarationQuotes := by
  intro hq
  cases e with
  | word w => exact not_mem_quotes_of_isWordPart (List.all_eq_true.mp w.parts c hc) hq
  | quoted q => exact h q rfl
  | _ =>
    obtain rfl := List.mem_singleton.mp hc
    exact absurd hq (by decide)

/-- What a clause takes of an element that is no specifier: all marks, and the words that are made of the characters of
names. -/
theorem Element.forall_isClauseChar_iff {e : Element} (h : ∀ q, e ≠ .quoted q) :
    (∀ c ∈ e.chars, isClauseChar c = true) ↔ ∀ w, e = .word w → w.chars.all isNameChar = true := by
  cases e with
  | word w =>
    have hchars : ∀ c ∈ w.chars, isClauseChar c = isNameChar c := fun c hc =>
      isClauseChar_of_isWordPart (List.all_eq_true.mp w.parts c hc)
    simp +contextual [Element.chars, hchars]
  | quoted q => exact absurd rfl (h q)
  | _ => exact iff_of_true (List.forall_mem_singleton.mpr (by decide)) fun w hw => by cases hw

/-- A mark ends no word. -/
theorem Element.opensWord_chars {e : Element} (h : ∀ q, e ≠ .quoted q) (hw : e.isWord = false) (cs : List Char) :
    opensWord (cs ++ e.chars).getLast? = true := by
  cases e with
  | word w => cases hw
  | quoted q => exact absurd rfl (h q)
  | _ => rw [Element.chars, List.getLast?_concat]; decide

/-! ### What spaced elements look like -/

section

variable {ps qs : List (List Char × Element)}

@[simp] theorem spell_nil : spell [] = [] := rfl

@[simp] theorem spell_cons (p : List Char × Element) : spell (p :: ps) = p.1 ++ (p.2.chars ++ spell ps) := by
  rw [spell, List.flatMap_cons, List.append_assoc]
  rfl

@[simp] theorem spell_append : spell (ps ++ qs) = spell ps ++ spell qs := List.flatMap_append

theorem forall_mem_spell {holds : Char → Prop} :
    (∀ c ∈ spell ps, holds c) ↔ ∀ p ∈ ps, (∀ c ∈ p.1, holds c) ∧ ∀ c ∈ p.2.chars, holds c := by
  induction ps with
  | nil => simp
  | cons p ps ih => simp only [spell_cons, List.forall_mem_append, ih, List.forall_mem_cons, and_assoc]

end

/-! ### What stands in a clause -/

theorem Named.mem_elements {named : Named} {e : Element} (he : e ∈ named.elements) : ∃ w, e = .word w := by
  cases named <;> simp only [Named.elements, List.mem_cons, List.not_mem_nil, or_false] at he
  · exact ⟨_, he⟩
  · rcases he with rfl | rfl | rfl <;> exact ⟨_, rfl⟩

/-- A list holds words and commas. -/
theorem mem_listed {names : List Named} {trailing : Bool} {e : Element} (he : e ∈ listed names trailing) :
    e = .comma ∨ ∃ w, e = .word w := by
  have hnames : ∀ e ∈ [Element.comma].intercalate (names.map Named.elements), e = .comma ∨ ∃ w, e = .word w := by
    clear he
    induction names with
    | nil => simp
    | cons named names ih =>
      intro e he
      cases names with
      | nil => exact .inr (Named.mem_elements (by simpa using he))
      | cons next names =>
        rw [List.map_cons, List.map_cons, List.intercalate_cons_cons, List.mem_append, List.mem_append] at he
        rcases he with (he | he) | he
        · exact .inr (Named.mem_elements he)
        · exact .inl (List.mem_singleton.mp he)
        · exact ih e he
  rcases List.mem_append.mp he with he | he
  · exact hnames e he
  · cases trailing
    · cases he
    · exact .inl (List.mem_singleton.mp he)

/-- No brace stands in a list. -/
theorem Element.not_mem_of_mem_listed {names : List Named} {trailing : Bool} {e : Element}
    (he : e ∈ listed names trailing) : '\x7d' ∉ e.chars := by
  intro hc
  rcases mem_listed he with rfl | ⟨w, rfl⟩
  · exact absurd (List.mem_singleton.mp hc) (by decide)
  · exact absurd (List.all_eq_true.mp w.parts _ hc) (by decide)

theorem Clause.ne_quoted {clause : Clause} {e : Element} (he : e ∈ clause.elements) (q : Quoted) : e ≠ .quoted q := by
  have hlisted : ∀ {names trailing}, .quoted q ∉ listed names trailing := by
    intro names trailing hq
    rcases mem_listed hq with h | ⟨w, h⟩ <;> cases h
  rintro rfl
  cases clause with
  | importNames default | importAll default =>
    cases default <;> simp [Clause.elements, beforeComma, braced, hlisted] at he
  | _ => simp [Clause.elements, braced, hlisted] at he

theorem Clause.elements_ne_nil (clause : Clause) : clause.elements ≠ [] := by
  cases clause <;> simp [Clause.elements, braced]

/-- Before `from` and the specifier stand the elements of the clause. -/
theorem exists_spaced (d : Declaration) : ∃ ps g g',
    d.spaced = ps ++ [(g, .word .fromWord), (g', .quoted d.quoted)] ∧ ps.map Prod.snd = d.clause.elements ∧
      (∀ p ∈ ps, p.1.all isBlank = true) ∧ g.all isBlank = true ∧ g'.all isBlank = true := by
  obtain ⟨ps, qs, hspaced, hps, hqs⟩ := List.map_eq_append_iff.mp d.elements_eq
  obtain ⟨⟨g, e⟩, rs, rfl, he, hrs⟩ := List.map_eq_cons_iff.mp hqs
  obtain ⟨⟨g', e'⟩, ss, rfl, he', hss⟩ := List.map_eq_cons_iff.mp hrs
  obtain rfl := List.map_eq_nil_iff.mp hss
  obtain rfl : e = .word .fromWord := he
  obtain rfl : e' = .quoted d.quoted := he'
  have hblank := d.blank
  rw [hspaced, List.forall_mem_append] at hblank
  exact ⟨ps, g, g', hspaced, hps, hblank.1, hblank.2 _ List.mem_cons_self,
    hblank.2 _ (List.mem_cons_of_mem _ List.mem_cons_self)⟩

section

variable {d : Declaration} {ps : List (List Char × Element)} {g g' : List Char}

/-- The text of a declaration, with what stands from `from` on written out. -/
theorem text_append (hspaced : d.spaced = ps ++ [(g, .word .fromWord), (g', .quoted d.quoted)]) (after : List Char) :
    d.text ++ after = d.clause.keyword.chars ++ (spell ps ++
      (g ++ ("from".toList ++ (g' ++ (d.quoted.chars ++ after))))) := by
  simp [text, hspaced, Element.chars]

/-- A blank stands between a word and `from`. -/
theorem gap_ne_nil (hspaced : d.spaced = ps ++ [(g, .word .fromWord), (g', .quoted d.quoted)])
    {p : List Char × Element} (hp : ps.getLast? = some p) (hword : p.2.isWord = true) : g ≠ [] := by
  obtain ⟨qs, rfl⟩ := List.getLast?_eq_some_iff.mp hp
  have hapart := d.apart
  rw [hspaced, List.append_assoc, ← List.cons_append, List.singleton_append, List.isChain_append_cons_cons] at hapart
  exact hapart.2.1 hword rfl

end

/-- A declaration ends with a quote. -/
theorem exists_text (d : Declaration) : ∃ c cs, d.text = c :: cs ∧ opensWord d.text.getLast? = true := by
  obtain ⟨ps, g, g', hspaced, -⟩ := d.exists_spaced
  obtain ⟨c, cs, hkeyword, -⟩ := d.clause.keyword.exists_cons
  refine ⟨c, cs ++ spell d.spaced, by rw [text, hkeyword]; rfl, ?_⟩
  have hquotes : declarationQuotes.any isWordChar = false := by decide
  have htext : d.text = d.clause.keyword.chars ++ (spell ps ++ (g ++ ("from".toList ++ (g' ++
      (d.quoted.quote :: d.quoted.specifier))))) ++ [d.quoted.quote] := by
    have happend := text_append hspaced []
    rw [List.append_nil] at happend
    simp [happend, Quoted.chars]
  rw [htext, List.getLast?_concat]
  simpa [opensWord] using List.any_eq_false.mp hquotes _ (List.contains_iff_mem.mp d.quoted.isQuote)

end Declaration

end ModuleBundler
