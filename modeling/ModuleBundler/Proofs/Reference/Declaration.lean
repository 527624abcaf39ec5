import ModuleBundler.Proofs.Reference.Extraction
import ModuleBundler.Proofs.Reference.Occurrence

/-!
# Declarations are found

Where a declaration is as the patterns ask, it is found, whatever else its spacing is, and where it is not, no reference
of its form begins at the keyword (`declaration_occurs_iff`). Declarations that stand one after the other are found in
their order (`references_declarations`).
-/

namespace ModuleBundler

open Text

namespace Declaration

/-! ### Where a declaration is found -/

section

variable {d : Declaration} {before : Option Char} {after : List Char} {n : Nat}

theorem matchAt_iff {specifier : List Char} :
    d.clause.kind.matchAt before (d.text ++ after) = some (specifier, n) ↔
      opensWord before = true ∧ d.Extractable ∧ specifier = d.quoted.specifier ∧ n = d.text.length := by
  simp only [ReferenceKind.matchAt, Option.ite_none_right_eq_some, Option.map_eq_some_iff, Prod.exists, Prod.mk.injEq,
    read_iff]
  refine and_congr_right fun _ => ?_
  constructor
  · rintro ⟨_, _, ⟨hextractable, rfl, rfl⟩, rfl, rfl⟩
    exact ⟨hextractable, rfl, by simp⟩
  · rintro ⟨hextractable, rfl, rfl⟩
    exact ⟨_, _, ⟨hextractable, rfl, rfl⟩, rfl, by simp⟩

theorem occursAt_iff {before specifier : List Char} :
    d.clause.kind.OccursAt (before ++ (d.text ++ after)) ⟨before.length, before.length + n, specifier⟩ ↔
      opensWord before.getLast? = true ∧ d.Extractable ∧ specifier = d.quoted.specifier ∧ n = d.text.length := by
  have hstart : before.length ≤ (before ++ (d.text ++ after)).length := by simp
  have hbefore : (Cursor.into (before ++ (d.text ++ after)) before.length).before.head? = before.getLast? := by
    simp [Cursor.into]
  rw [← ReferenceKind.matchAt_eq_some_iff hstart, hbefore, List.drop_left, matchAt_iff]

/-- After a declaration the search goes on behind its quote. -/
theorem specifiers_text (hbefore : opensWord before = true) (hd : d.Extractable) :
    d.clause.kind.specifiers before (d.text ++ after) =
      d.quoted.specifier :: d.clause.kind.specifiers d.text.getLast? after := by
  obtain ⟨c, cs, htext, -⟩ := d.exists_text
  have hmatch : d.clause.kind.matchAt before (d.text ++ after) = some (d.quoted.specifier, d.text.length) :=
    matchAt_iff.mpr ⟨hbefore, hd, rfl, rfl⟩
  have hlast : (c :: (cs ++ after))[cs.length]? = (c :: cs).getLast? := by
    rw [← List.cons_append, List.getElem?_append_left (by simp), List.getLast?_eq_getElem?]
    rfl
  rw [htext, List.cons_append] at hmatch ⊢
  rw [ReferenceKind.specifiers, hmatch]
  simp only [List.length_cons, Nat.add_sub_cancel, hlast, List.drop_left]

/-- Every form begins with a word. -/
theorem avoids_read (kind : ReferenceKind) : Reader.Avoids kind.read (!isWordChar ·) := by
  intro c cs hc
  have hkeyword : ∀ keyword : List Char, keyword.head?.any isWordChar = true → dropWord? keyword (c :: cs) = none := by
    intro keyword hk
    refine dropWord?_eq_none fun rest h => ?_
    cases keyword with
    | nil => cases hk
    | cons k keyword =>
      obtain rfl := (List.cons.inj h).1
      simp_all
  cases kind with
  | require => simp only [ReferenceKind.read, readCall, hkeyword "require".toList (by decide)]; rfl
  | importFrom => simp only [ReferenceKind.read, readImportFrom, hkeyword "import".toList (by decide)]; rfl
  | sideEffectImport => simp only [ReferenceKind.read, readSideEffectImport, hkeyword "import".toList (by decide)]; rfl
  | dynamicImport => simp only [ReferenceKind.read, readCall, hkeyword "import".toList (by decide)]; rfl
  | reExport => simp only [ReferenceKind.read, readReExport, hkeyword "export".toList (by decide)]; rfl

/-- Characters between declarations that belong to no word are passed over. -/
theorem specifiers_skip (kind : ReferenceKind) {gap : List Char} (hgap : gap.all (!isWordChar ·) = true)
    (hbefore : opensWord before = true) : ∃ before', opensWord before' = true ∧
      kind.specifiers before (gap ++ after) = kind.specifiers before' after := by
  induction gap generalizing before with
  | nil => exact ⟨before, hbefore, rfl⟩
  | cons c gap ih =>
    rw [List.all_cons, Bool.and_eq_true] at hgap
    have hnone : kind.matchAt before (c :: (gap ++ after)) = none := by
      rw [ReferenceKind.matchAt, avoids_read kind c _ hgap.1, if_pos hbefore]
      rfl
    have hopens : opensWord (some c) = true := by simpa [opensWord] using hgap.1
    obtain ⟨before', hopens, hspecifiers⟩ := ih hgap.2 hopens
    refine ⟨before', hopens, ?_⟩
    rw [List.cons_append, ReferenceKind.specifiers, hnone]
    exact hspecifiers

/-- The specifiers of declarations of one form that stand one after the other are told in order. -/
theorem specifiers_declarations {kind : ReferenceKind} {ds : List (List Char × Declaration)}
    (hds : ∀ p ∈ ds, p.2.clause.kind = kind ∧ p.2.Extractable ∧ p.1.all (!isWordChar ·) = true)
    (hbefore : opensWord before = true) (after : List Char) : ∃ before', opensWord before' = true ∧
      kind.specifiers before (ds.flatMap (fun p => p.1 ++ p.2.text) ++ after) =
        ds.map (·.2.quoted.specifier) ++ kind.specifiers before' after := by
  induction ds generalizing before with
  | nil => exact ⟨before, hbefore, rfl⟩
  | cons p ds ih =>
    obtain ⟨⟨rfl, hd, hgap⟩, hds⟩ := List.forall_mem_cons.mp hds
    obtain ⟨before', hopens, hskip⟩ := specifiers_skip p.2.clause.kind hgap hbefore
    obtain ⟨c, cs, -, hquote⟩ := p.2.exists_text
    obtain ⟨before'', hopens'', hrest⟩ := ih hds hquote
    refine ⟨before'', hopens'', ?_⟩
    rw [List.flatMap_cons, List.append_assoc, List.append_assoc, hskip, specifiers_text hopens hd, hrest]
    rfl

end

end Declaration

/-- A source that begins with declarations of one form, with no words between them, refers to their specifiers, in their
order. -/
theorem references_declarations {kind : ReferenceKind} {ds : List (List Char × Declaration)}
    (hds : ∀ p ∈ ds, p.2.clause.kind = kind ∧ p.2.Extractable ∧ p.1.all (!isWordChar ·) = true) (after : List Char) :
    (ds.map fun p => ⟨String.ofList p.2.quoted.specifier, kind⟩) <:+:
      references (String.ofList (ds.flatMap (fun p => p.1 ++ p.2.text) ++ after)) := by
  obtain ⟨before', -, hspecifiers⟩ := Declaration.specifiers_declarations hds (show opensWord none = true from rfl) after
  have hkind : kind ∈ ReferenceKind.all := by cases kind <;> decide
  -- the references of one form are a stretch of all references
  obtain ⟨kinds, kinds', hall⟩ := List.append_of_mem hkind
  rw [references, String.toList_ofList, hall, List.flatMap_append, List.flatMap_cons, hspecifiers, List.map_append,
    List.map_map, List.append_assoc]
  exact ⟨_, _, List.append_assoc _ _ _⟩

/-- **A declaration is found whatever its spacing is, as long as there are the blanks that the pattern asks for.** Of the
form that a declaration has, no other reference begins at its keyword than the one from all of the declaration to its
specifier, and this one does if and only if no word reaches into the keyword and the declaration is as the pattern asks:
there are blanks after the keyword, and before `as` where everything is exported under a name; its names are made of
the characters of names, or listed by an export; and the specifier is not empty. -/
theorem declaration_occurs_iff (d : Declaration) :
    (∀ before after o, o.start = before.length →
      (d.clause.kind.OccursAt (before ++ (d.text ++ after)) o ↔
        opensWord before.getLast? = true ∧ d.Extractable ∧
          o = ⟨before.length, before.length + d.text.length, d.quoted.specifier⟩)) ∧
    (d.Extractable → ∀ after, ⟨String.ofList d.quoted.specifier, d.clause.kind⟩ ∈
      references (String.ofList (d.text ++ after))) := by
  constructor
  · rintro before after ⟨start, stop, specifier⟩ rfl
    constructor
    · intro ho
      have hlt : before.length < stop := ho.start_lt
      obtain ⟨n, rfl⟩ := Nat.exists_eq_add_of_le (Nat.le_of_lt hlt)
      obtain ⟨hopens, hd, rfl, rfl⟩ := Declaration.occursAt_iff.mp ho
      exact ⟨hopens, hd, rfl⟩
    · rintro ⟨hopens, hd, ho⟩
      rw [ho]
      exact Declaration.occursAt_iff.mpr ⟨hopens, hd, rfl, rfl⟩
  · intro hd after
    have hds : ∀ p ∈ [(([] : List Char), d)], p.2.clause.kind = d.clause.kind ∧ p.2.Extractable ∧
        p.1.all (!isWordChar ·) = true := List.forall_mem_singleton.mpr ⟨rfl, hd, rfl⟩
    have hmem := (references_declarations hds after).subset List.mem_cons_self
    simpa using hmem

namespace Declaration

/-- `import a,{b as c,}from"./x"`: only the blanks that no reader can do without. -/
def tight : Declaration where
  clause := .importNames (some { chars := ['a'] })
    [.renamed { chars := ['b'] } { chars := ['c'] }] true
  quoted := { quote := '\x22', specifier := "./x".toList }
  spaced := [([' '], .word { chars := ['a'] }), ([], .comma), ([], .opening),
    ([], .word { chars := ['b'] }), ([' '], .word .asWord), ([' '], .word { chars := ['c'] }),
    ([], .comma), ([], .closing), ([], .word .fromWord),
    ([], .quoted { quote := '\x22', specifier := "./x".toList })]
  elements_eq := rfl
  blank := by decide
  apart := by decide

theorem extractable_tight : tight.Extractable := by
  refine ⟨by decide, by decide, fun _ w hw => ?_⟩
  simp only [tight, Clause.elements, beforeComma, braced, listed, List.map_cons, List.map_nil, Named.elements,
    List.intercalate_singleton, if_true, List.cons_append, List.nil_append, List.mem_cons, List.not_mem_nil,
    reduceCtorEq, Element.word.injEq, or_false, false_or] at hw
  rcases hw with rfl | rfl | rfl | rfl <;> decide

end Declaration

theorem declaration_occurs_iff_tight :
    String.ofList Declaration.tight.text = "import a,\x7bb as c,\x7dfrom\x22./x\x22" ∧ Declaration.tight.Extractable ∧
      ⟨"./x", .importFrom⟩ ∈ references "import a,\x7bb as c,\x7dfrom\x22./x\x22" := by
  have htext : String.ofList Declaration.tight.text = "import a,\x7bb as c,\x7dfrom\x22./x\x22" := by decide
  have hmem := (declaration_occurs_iff Declaration.tight).2 Declaration.extractable_tight []
  rw [List.append_nil, htext] at hmem
  exact ⟨htext, Declaration.extractable_tight, hmem⟩

namespace Declaration

/-- `import{a}from'./x'` -/
def pressedImport : Declaration where
  clause := .importNames none [.alone { chars := ['a'] }] false
  quoted := { quote := '\x27', specifier := "./x".toList }
  spaced := [([], .opening), ([], .word { chars := ['a'] }), ([], .closing), ([], .word .fromWord),
    ([], .quoted { quote := '\x27', specifier := "./x".toList })]
  elements_eq := rfl
  blank := by decide
  apart := by decide

/-- `export *as a from'./x'` -/
def pressedExport : Declaration where
  clause := .exportAllAs { chars := ['a'] }
  quoted := { quote := '\x27', specifier := "./x".toList }
  spaced := [([' '], .star), ([], .word .asWord), ([' '], .word { chars := ['a'] }),
    ([' '], .word .fromWord), ([], .quoted { quote := '\x27', specifier := "./x".toList })]
  elements_eq := rfl
  blank := by decide
  apart := by decide

end Declaration

/-- Where a mark follows the keyword, or `as` a star, without a blank, nothing is found. -/
theorem references_pressed :
    String.ofList Declaration.pressedImport.text = "import\x7ba\x7dfrom'./x'" ∧
      references "import\x7ba\x7dfrom'./x'" = [] ∧
      String.ofList Declaration.pressedExport.text = "export *as a from'./x'" ∧
      references "export *as a from'./x'" = [] :=
  ⟨by decide, by decide +kernel, by decide, by decide +kernel⟩

end ModuleBundler
