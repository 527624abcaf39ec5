import ModuleBundler.Proofs.Reference.Spelling
import Mathlib.Data.List.TakeWhile

/-!
# Declarations are read

The reader of a form takes the text of a declaration of this form, up to its closing quote, if and only if the
declaration is as the patterns ask (`Declaration.read_iff`). The clause of an import is one run of characters up to the
quote, and of its spacing only the first gap counts. The clauses of an export are read element after element.
-/

namespace ModuleBundler

open Text

namespace Declaration

/-! ### Blanks and quotes -/

section

variable {g g' cs after : List Char}

theorem trimStart_append (hg : g.all isBlank = true) (hc : cs.head?.any isBlank = false) :
    trimStart (g ++ cs) = cs :=
  dropWhile_append_of_stop (List.all_eq_true.mp hg) fun c h => by simpa [h] using hc

theorem afterBlanks?_append (hg : g.all isBlank = true) (hc : cs.head?.any isBlank = false) :
    afterBlanks? (g ++ cs) = if g = [] then none else some cs := by
  unfold afterBlanks?
  rw [trimStart_append hg hc]
  cases g with
  | nil => simp [hc]
  | cons c g =>
    rw [List.all_cons, Bool.and_eq_true] at hg
    simp [hg.1]

/-- What is told of a quoted specifier before a text: an empty one is none. -/
def Quoted.told (q : Quoted) (after : List Char) : Option (List Char × List Char) :=
  if q.specifier = [] then none else some (q.specifier, after)

theorem Quoted.told_eq_some_iff {q : Quoted} {v : List Char × List Char} :
    q.told after = some v ↔ q.specifier ≠ [] ∧ v = (q.specifier, after) := by
  rw [told, Option.ite_none_left_eq_some, Option.some.injEq, eq_comm (a := v)]

theorem readQuoted_chars (q : Quoted) (after : List Char) :
    readQuoted declarationQuotes (q.chars ++ after) = q.told after := by
  have hinside : (fun c => !declarationQuotes.contains c && c != '\n') = isInside declarationQuotes := rfl
  have hall := List.all_eq_true.mp q.inside
  have hstop : ∀ c, (q.quote :: after).head? = some c → isInside declarationQuotes c = false := by
    intro c hc
    obtain rfl := Option.some.inj hc
    simp only [isInside, q.isQuote, Bool.not_true, Bool.false_and]
  have htext : q.chars ++ after = q.quote :: (q.specifier ++ q.quote :: after) := by
    simp [Quoted.chars]
  simp only [htext, readQuoted, hinside, takeWhile_append_of_stop hall hstop, dropWhile_append_of_stop hall hstop,
    q.isQuote, Bool.true_and, Bool.and_true, Bool.not_eq_true', List.isEmpty_eq_false_iff, ite_not]
  rfl

/-- A quoted specifier begins with a quote. -/
theorem readQuoted_eq_none {c : Char} (hc : c ∉ declarationQuotes) : readQuoted declarationQuotes (c :: cs) = none := by
  have havoids : Reader.Avoids (readQuoted declarationQuotes) (!declarationQuotes.contains ·) :=
    avoids_readQuoted (by decide)
  exact havoids c cs (by simpa using hc)

theorem readFrom_append (hg : g.all isBlank = true) (hg' : g'.all isBlank = true) {q : Quoted} :
    readFrom (g ++ ("from".toList ++ (g' ++ (q.chars ++ after)))) = q.told after := by
  unfold readFrom
  rw [trimStart_append hg rfl, dropWord?_append]
  simp only [Option.bind_eq_bind, Option.bind_some, trimStart_append hg' q.head?_chars, readQuoted_chars]

/-- A text with a character of another class is left from the first one of these on. -/
theorem exists_dropWhile {holds : Char → Bool} (h : ¬ ∀ c ∈ cs, holds c = true) :
    ∃ c rest, c ∈ cs ∧ holds c = false ∧ ∀ after, (cs ++ after).dropWhile holds = c :: (rest ++ after) := by
  obtain ⟨c, rest, hdrop⟩ : ∃ c rest, cs.dropWhile holds = c :: rest :=
    List.exists_cons_of_ne_nil fun hnil => h (List.dropWhile_eq_nil_iff.mp hnil)
  refine ⟨c, rest, (List.dropWhile_sublist holds).subset (hdrop ▸ List.mem_cons_self), ?_, fun after => ?_⟩
  · have hhead := List.head?_dropWhile_not holds cs
    simpa [hdrop] using hhead
  · rw [List.dropWhile_append, hdrop, List.isEmpty_cons, if_neg Bool.false_ne_true, List.cons_append]

/-- Before another character than the first one of `from`, after blanks or not, nothing is read. -/
theorem readFrom_eq_none {c : Char} (hg : g.all isBlank = true) (hb : isBlank c = false) (hc : c ≠ 'f') :
    readFrom (g ++ c :: cs) = none := by
  unfold readFrom
  rw [trimStart_append hg (by simpa using hb), dropWord?_eq_none]
  · rfl
  · intro rest h
    exact hc (List.cons.inj h).1

end

/-! ### Imports -/

theorem Clause.of_importFrom {clause : Clause} (h : clause.kind = .importFrom) :
    clause.keyword = .importWord ∧ clause.demands = [0] ∧ clause.takesAny = false := by
  cases clause with
  | importDefault | importNames | importAll => exact ⟨rfl, rfl, rfl⟩
  | exportAll | exportAllAs | exportNames => cases h

theorem not_mem_quotes_of_isClauseChar {c : Char} (h : isClauseChar c = true) : c ∉ declarationQuotes := by
  have hquotes : declarationQuotes.any isClauseChar = false := by decide
  exact fun hc => List.any_eq_false.mp hquotes c hc h

/-- A clause without quotes ends where the quoted specifier begins, unless it holds a character that no clause may have:
then nothing is read. -/
theorem readImportFrom_append {body : List Char} (hbody : ∀ c ∈ body, c ∉ declarationQuotes) {q : Quoted}
    {after : List Char} {v : List Char × List Char} :
    readImportFrom ("import".toList ++ (body ++ (q.chars ++ after))) = some v ↔
      (∀ c ∈ body, isClauseChar c = true) ∧ endsInFrom body = true ∧ q.told after = some v := by
  unfold readImportFrom
  rw [dropWord?_append]
  simp only [Option.bind_eq_bind, Option.bind_some, Option.ite_none_right_eq_some]
  by_cases hall : ∀ c ∈ body, isClauseChar c = true
  · have hstop : ∀ c, (q.chars ++ after).head? = some c → isClauseChar c = false := by
      intro c hc
      obtain rfl := Option.some.inj hc
      rw [Bool.eq_false_iff]
      exact fun h => not_mem_quotes_of_isClauseChar h (List.contains_iff_mem.mp q.isQuote)
    rw [takeWhile_append_of_stop hall hstop, dropWhile_append_of_stop hall hstop, readQuoted_chars]
    exact (and_iff_right hall).symm
  · refine iff_of_false ?_ fun h => hall h.1
    -- what is left begins inside the clause, and with no quote
    obtain ⟨c, rest, hc, -, hdrop⟩ := exists_dropWhile hall
    rintro ⟨-, hread⟩
    rw [hdrop, readQuoted_eq_none (hbody c hc)] at hread
    cases hread

section

variable {ps : List (List Char × Element)} {g g' : List Char}

theorem forall_isClauseChar_blanks (hg : g.all isBlank = true) : ∀ c ∈ g, isClauseChar c = true := fun c hc =>
  isClauseChar_of_isBlank (List.all_eq_true.mp hg c hc)

theorem forall_isClauseChar_from (hg : g.all isBlank = true) (hg' : g'.all isBlank = true) :
    ∀ c ∈ g ++ ("from".toList ++ g'), isClauseChar c = true := by
  have hfrom : "from".toList.all isClauseChar = true := by decide
  simp only [List.forall_mem_append]
  exact ⟨forall_isClauseChar_blanks hg, List.all_eq_true.mp hfrom, forall_isClauseChar_blanks hg'⟩

theorem forall_isClauseChar_spell_iff (hblank : ∀ p ∈ ps, p.1.all isBlank = true)
    (hquoted : ∀ p ∈ ps, ∀ q, p.2 ≠ .quoted q) : (∀ c ∈ spell ps, isClauseChar c = true) ↔
      ∀ w, .word w ∈ ps.map Prod.snd → w.chars.all isNameChar = true := by
  rw [forall_mem_spell]
  constructor
  · intro h w hw
    obtain ⟨p, hp, hpw⟩ := List.mem_map.mp hw
    exact (Element.forall_isClauseChar_iff (hquoted p hp)).mp (h p hp).2 w hpw
  · intro h p hp
    refine ⟨forall_isClauseChar_blanks (hblank p hp), ?_⟩
    exact (Element.forall_isClauseChar_iff (hquoted p hp)).mpr fun w hw => h w (List.mem_map.mpr ⟨p, hp, hw⟩)

theorem forall_not_mem_quotes_spell (hblank : ∀ p ∈ ps, p.1.all isBlank = true)
    (hquoted : ∀ p ∈ ps, ∀ q, p.2 ≠ .quoted q) : ∀ c ∈ spell ps, c ∉ declarationQuotes := by
  refine forall_mem_spell.mpr fun p hp => ⟨fun c hc => ?_, fun c hc => Element.not_mem_quotes (hquoted p hp) hc⟩
  exact not_mem_quotes_of_isClauseChar (forall_isClauseChar_blanks (hblank p hp) c hc)

/-- Where a word follows without a blank, no word is before it. -/
theorem opensWord_spell (hne : ps ≠ []) (hquoted : ∀ p ∈ ps, ∀ q, p.2 ≠ .quoted q) (hg : g.all isBlank = true)
    (hlast : ∀ p, ps.getLast? = some p → p.2.isWord = true → g ≠ []) :
    opensWord (spell ps ++ g).getLast? = true := by
  by_cases hnil : g = []
  · have hsplit := List.dropLast_append_getLast hne
    have hmem := List.getLast_mem hne
    have hword : (ps.getLast hne).2.isWord = false := by
      rw [Bool.eq_false_iff]
      exact fun hw => hlast _ (List.getLast?_eq_some_getLast hne) hw hnil
    have hopens := Element.opensWord_chars (hquoted _ hmem) hword (spell ps.dropLast ++ (ps.getLast hne).1)
    rw [hnil, List.append_nil, ← hsplit, spell_append, spell_cons, spell_nil, List.append_nil, ← List.append_assoc]
    exact hopens
  · rw [List.getLast?_append_of_ne_nil _ hnil, List.getLast?_eq_some_getLast hnil]
    have hblank := isNameChar_of_isBlank (List.all_eq_true.mp hg _ (List.getLast_mem hnil))
    simpa [opensWord] using (Bool.or_eq_false_iff.mp hblank).1

theorem endsInFrom_spell (hg' : g'.all isBlank = true) (hopens : opensWord (spell ps ++ g).getLast? = true)
    (hfirst : ∀ p ∈ ps, p.1.all isBlank = true) (hne : ps ≠ []) :
    endsInFrom (spell ps ++ (g ++ ("from".toList ++ g'))) = true ↔ ps.head?.map Prod.fst ≠ some [] := by
  obtain ⟨⟨g₀, e⟩, ps, rfl⟩ := List.exists_cons_of_ne_nil hne
  have hg₀ : g₀.all isBlank = true := hfirst _ List.mem_cons_self
  simp only [List.head?_cons, Option.map_some, ne_eq, Option.some.injEq]
  constructor
  · rintro hends rfl
    have hhead := (Bool.and_eq_true_iff.mp hends).1
    rw [spell_cons, List.nil_append, List.append_assoc, e.head?_chars] at hhead
    cases hhead
  · intro hgap
    obtain ⟨c, g₀, rfl⟩ := List.exists_cons_of_ne_nil hgap
    have hlength := List.length_pos_of_ne_nil e.chars_ne_nil
    have hblank : isBlank c = true := List.all_eq_true.mp hg₀ c List.mem_cons_self
    refine endsInFrom_iff.mpr ⟨_, g', (List.append_assoc _ _ _).symm, hg', ?_, hopens, ?_⟩
    · simpa using hblank
    · simp only [spell_cons, List.cons_append, List.length_cons, List.length_append]
      omega

end

theorem readImportFrom_iff {d : Declaration} (hkind : d.clause.kind = .importFrom) {after : List Char}
    {v : List Char × List Char} :
    readImportFrom (d.text ++ after) = some v ↔ d.Extractable ∧ v = (d.quoted.specifier, after) := by
  obtain ⟨ps, g, g', hspaced, hps, hblank, hg, hg'⟩ := d.exists_spaced
  have hne : ps ≠ [] := by
    rintro rfl
    exact d.clause.elements_ne_nil hps.symm
  have hquoted : ∀ p ∈ ps, ∀ q, p.2 ≠ .quoted q := fun p hp => Clause.ne_quoted (hps ▸ List.mem_map_of_mem hp)
  obtain ⟨hkeyword, hdemands, hany⟩ := Clause.of_importFrom hkind
  have htext : d.text ++ after = "import".toList ++
      (spell ps ++ (g ++ ("from".toList ++ g')) ++ (d.quoted.chars ++ after)) := by
    rw [text_append hspaced, hkeyword]
    simp only [List.append_assoc, Word.chars_importWord]
  have hopens := opensWord_spell hne hquoted hg fun p hp hword => gap_ne_nil hspaced hp hword
  have hfrom := forall_isClauseChar_from hg hg'
  have hall : (∀ c ∈ spell ps ++ (g ++ ("from".toList ++ g')), isClauseChar c = true) ↔
      ∀ w, .word w ∈ d.clause.elements → w.chars.all isNameChar = true := by
    rw [List.forall_mem_append, and_iff_left hfrom, forall_isClauseChar_spell_iff hblank hquoted, hps]
  have hgaps : (∀ i ∈ d.clause.demands, d.gaps[i]? ≠ some []) ↔ ps.head?.map Prod.fst ≠ some [] := by
    obtain ⟨p, ps, rfl⟩ := List.exists_cons_of_ne_nil hne
    simp [hdemands, gaps, hspaced]
  have hquotes : ∀ c ∈ spell ps ++ (g ++ ("from".toList ++ g')), c ∉ declarationQuotes :=
    List.forall_mem_append.mpr ⟨forall_not_mem_quotes_spell hblank hquoted, fun c hc =>
      not_mem_quotes_of_isClauseChar (hfrom c hc)⟩
  rw [htext, readImportFrom_append hquotes, hall, endsInFrom_spell hg' hopens hblank hne, ← hgaps,
    Quoted.told_eq_some_iff]
  constructor
  · rintro ⟨hnames, hgaps, hspecifier, rfl⟩
    exact ⟨⟨hspecifier, hgaps, fun _ => hnames⟩, rfl⟩
  · rintro ⟨hextractable, rfl⟩
    exact ⟨hextractable.names hany, hextractable.gaps, hextractable.specifier, rfl⟩

/-! ### Exports -/

section

variable {g g₁ g₂ g' rest inner after : List Char} {v : List Char × List Char} {q : Quoted}

theorem readReExport_eq (cs : List Char) : readReExport cs =
    (dropWord? "export".toList cs).bind fun cs => (afterBlanks? cs).bind readTypeClause := rfl

/-- The blank after `export` is asked for, whatever follows. -/
theorem readReExport_append {c : Char} (hg : g.all isBlank = true) (hb : isBlank c = false) (hc : c ≠ 't') :
    readReExport ("export".toList ++ (g ++ c :: rest)) = some v ↔ g ≠ [] ∧ readExportClause (c :: rest) = some v := by
  have htype : readTypeClause (c :: rest) = readExportClause (c :: rest) := by
    rw [readTypeClause, dropWord?_eq_none fun _ h => hc (List.cons.inj h).1]
    rfl
  rw [readReExport_eq, dropWord?_append, Option.bind_some, afterBlanks?_append hg (by simpa using hb)]
  by_cases hnil : g = []
  · simp [hnil]
  · rw [if_neg hnil, Option.bind_some, htype]
    exact (and_iff_right hnil).symm

/-- After a star there can be blanks before `from`. -/
theorem readExportClause_star (hg : g.all isBlank = true) (hg' : g'.all isBlank = true) :
    readExportClause ('*' :: (g ++ ("from".toList ++ (g' ++ (q.chars ++ after))))) = q.told after := by
  have has : readAsFrom (g ++ ("from".toList ++ (g' ++ (q.chars ++ after)))) = none := by
    unfold readAsFrom
    rw [afterBlanks?_append hg rfl]
    by_cases hnil : g = []
    · simp [hnil]
    · rw [if_neg hnil]
      rfl
  show (readAsFrom _ <|> readFrom _) = _
  rw [has, readFrom_append hg hg']
  rfl

/-- After the braces there can be blanks before `from`. -/
theorem readExportClause_braces (hinner : '\x7d' ∉ inner) (hg : g.all isBlank = true) (hg' : g'.all isBlank = true) :
    readExportClause ('\x7b' :: (inner ++ '\x7d' :: (g ++ ("from".toList ++ (g' ++ (q.chars ++ after)))))) =
      q.told after := by
  have hdrop : (inner ++ '\x7d' :: (g ++ ("from".toList ++ (g' ++ (q.chars ++ after))))).dropWhile (· != '\x7d') =
      '\x7d' :: (g ++ ("from".toList ++ (g' ++ (q.chars ++ after)))) := by
    refine dropWhile_append_of_stop (fun c hc => ?_) fun c hc => ?_
    · exact bne_iff_ne.mpr fun h => hinner (h ▸ hc)
    · obtain rfl := Option.some.inj hc
      rfl
  simp only [readExportClause, hdrop]
  exact readFrom_append hg hg'

/-- A name is read before `from` if it is made of the characters of names. -/
theorem readNameFrom_append {w : Word} (hg : g.all isBlank = true) (hne : g ≠ []) (hg' : g'.all isBlank = true) :
    readNameFrom (w.chars ++ (g ++ ("from".toList ++ (g' ++ (q.chars ++ after))))) = some v ↔
      w.chars.all isNameChar = true ∧ q.told after = some v := by
  have hblank : ∀ c, (g ++ ("from".toList ++ (g' ++ (q.chars ++ after)))).head? = some c → isNameChar c = false := by
    intro c hc
    rw [List.head?_append_of_ne_nil _ hne] at hc
    exact isNameChar_of_isBlank (List.all_eq_true.mp hg c (List.mem_of_head? hc))
  rw [readNameFrom_eq_some_iff]
  by_cases hall : w.chars.all isNameChar = true
  · have htext := List.all_eq_true.mp hall
    have hquoted : readQuoted declarationQuotes
        (trimStart (g ++ ("from".toList ++ (g' ++ (q.chars ++ after))))) = none := by
      rw [trimStart_append hg rfl]
      exact readQuoted_eq_none (by decide)
    rw [takeWhile_append_of_stop htext hblank, dropWhile_append_of_stop htext hblank, readFrom_append hg hg', hquoted]
    simp [w.ne_nil, hall]
  · refine iff_of_false ?_ fun h => hall h.1
    -- the name goes on with a character that neither a name nor `from` nor a quote has
    obtain ⟨c, rest, hc, hname, hdrop⟩ := exists_dropWhile (mt List.all_eq_true.mpr hall)
    have hpart := List.all_eq_true.mp w.parts c hc
    have hblank := isBlank_of_isWordPart hpart
    have hfrom : ∀ cs, readFrom (c :: cs) = none := fun cs =>
      readFrom_eq_none (g := []) rfl hblank (by rintro rfl; cases hname)
    have hquoted : ∀ cs, readQuoted declarationQuotes (trimStart (c :: cs)) = none := by
      intro cs
      rw [trimStart, List.dropWhile_cons_of_neg (by simp [hblank])]
      exact readQuoted_eq_none (not_mem_quotes_of_isWordPart hpart)
    rw [hdrop, hfrom, hquoted]
    rintro ⟨-, h | ⟨-, -, -, h⟩⟩ <;> cases h

/-- Before and after `as` blanks are asked for. -/
theorem readExportClause_starAs {w : Word} (hg₁ : g₁.all isBlank = true) (hg₂ : g₂.all isBlank = true)
    (hne₂ : g₂ ≠ []) (hg : g.all isBlank = true) (hne : g ≠ []) (hg' : g'.all isBlank = true) :
    readExportClause ('*' :: (g₁ ++ ("as".toList ++ (g₂ ++ (w.chars ++
        (g ++ ("from".toList ++ (g' ++ (q.chars ++ after))))))))) = some v ↔
      g₁ ≠ [] ∧ w.chars.all isNameChar = true ∧ q.told after = some v := by
  have hfrom : readFrom (g₁ ++ ("as".toList ++ (g₂ ++ (w.chars ++
      (g ++ ("from".toList ++ (g' ++ (q.chars ++ after)))))))) = none :=
    readFrom_eq_none hg₁ (by decide) (by decide)
  have hword : ∀ cs, (w.chars ++ cs).head?.any isBlank = false := fun cs => (Element.word w).head?_chars cs
  show (readAsFrom _ <|> readFrom _) = some v ↔ _
  rw [hfrom, Option.orElse_eq_orElse, Option.orElse_eq_or, Option.or_none]
  show (afterBlanks? _).bind (fun cs => (dropWord? "as".toList cs).bind fun cs =>
    (afterBlanks? cs).bind readNameFrom) = some v ↔ _
  rw [afterBlanks?_append hg₁ rfl]
  by_cases hnil : g₁ = []
  · simp [hnil]
  · rw [if_neg hnil, Option.bind_some, dropWord?_append, Option.bind_some, afterBlanks?_append hg₂ (hword _),
      if_neg hne₂, Option.bind_some, readNameFrom_append hg hne hg']
    exact (and_iff_right hnil).symm

end

section

variable {d : Declaration} {after : List Char} {v : List Char × List Char}

theorem readReExport_exportAll_iff (hclause : d.clause = .exportAll) :
    readReExport (d.text ++ after) = some v ↔ d.Extractable ∧ v = (d.quoted.specifier, after) := by
  obtain ⟨ps, g, g', hspaced, hps, hblank, hg, hg'⟩ := d.exists_spaced
  rw [hclause] at hps
  obtain ⟨⟨g₀, e⟩, qs, rfl, rfl, hqs⟩ := List.map_eq_cons_iff.mp hps
  obtain rfl := List.map_eq_nil_iff.mp hqs
  have hextractable : d.Extractable ↔ g₀ ≠ [] ∧ d.quoted.specifier ≠ [] := by
    simp [extractable_iff, gaps, hspaced, hclause, Clause.demands, Clause.elements, and_comm]
  have htext : d.text ++ after = "export".toList ++ (g₀ ++ '*' ::
      (g ++ ("from".toList ++ (g' ++ (d.quoted.chars ++ after))))) := by
    rw [text_append hspaced, hclause]
    simp [Clause.keyword, Element.chars]
  rw [htext, readReExport_append (hblank _ List.mem_cons_self) (by decide) (by decide),
    readExportClause_star hg hg', Quoted.told_eq_some_iff, hextractable, and_assoc]

theorem readReExport_exportAllAs_iff {name : Word} (hclause : d.clause = .exportAllAs name) :
    readReExport (d.text ++ after) = some v ↔ d.Extractable ∧ v = (d.quoted.specifier, after) := by
  obtain ⟨ps, g, g', hspaced, hps, hblank, hg, hg'⟩ := d.exists_spaced
  have hapart := d.apart
  rw [hclause] at hps
  obtain ⟨⟨g₀, e⟩, qs, rfl, rfl, hqs⟩ := List.map_eq_cons_iff.mp hps
  obtain ⟨⟨g₁, e⟩, rs, rfl, rfl, hrs⟩ := List.map_eq_cons_iff.mp hqs
  obtain ⟨⟨g₂, e⟩, ss, rfl, rfl, hss⟩ := List.map_eq_cons_iff.mp hrs
  obtain rfl := List.map_eq_nil_iff.mp hss
  obtain ⟨hg₀, hg₁, hg₂, -⟩ : g₀.all isBlank = true ∧ g₁.all isBlank = true ∧ g₂.all isBlank = true ∧ _ := by
    simpa only [List.forall_mem_cons] using hblank
  -- words are on both sides of these two gaps
  obtain ⟨hne₂, hne⟩ : g₂ ≠ [] ∧ g ≠ [] := by
    rw [hspaced] at hapart
    simpa [Element.isWord] using hapart
  have hextractable : d.Extractable ↔
      g₀ ≠ [] ∧ g₁ ≠ [] ∧ name.chars.all isNameChar = true ∧ d.quoted.specifier ≠ [] := by
    have has : Word.asWord.chars.all isNameChar = true := by decide
    have hnames : (∀ w, Element.word w ∈ (Clause.exportAllAs name).elements → w.chars.all isNameChar = true) ↔
        name.chars.all isNameChar = true := by
      simp only [Clause.elements, List.mem_cons, List.not_mem_nil, reduceCtorEq, or_false, false_or, Element.word.injEq,
        forall_eq_or_imp, forall_eq, has, true_and]
    have hgaps : (∀ i ∈ (Clause.exportAllAs name).demands, d.gaps[i]? ≠ some []) ↔ g₀ ≠ [] ∧ g₁ ≠ [] := by
      simp [Clause.demands, gaps, hspaced]
    rw [extractable_iff, hclause, hnames, hgaps]
    constructor
    · rintro ⟨hs, ⟨h₀, h₁⟩, hn⟩
      exact ⟨h₀, h₁, hn rfl, hs⟩
    · rintro ⟨h₀, h₁, hn, hs⟩
      exact ⟨hs, ⟨h₀, h₁⟩, fun _ => hn⟩
  have htext : d.text ++ after = "export".toList ++ (g₀ ++ '*' :: (g₁ ++ ("as".toList ++ (g₂ ++ (name.chars ++
      (g ++ ("from".toList ++ (g' ++ (d.quoted.chars ++ after))))))))) := by
    rw [text_append hspaced, hclause]
    simp [Clause.keyword, Element.chars]
  rw [htext, readReExport_append hg₀ (by decide) (by decide), readExportClause_starAs hg₁ hg₂ hne₂ hg hne hg',
    Quoted.told_eq_some_iff, hextractable, and_assoc, and_assoc, and_assoc]

theorem readReExport_exportNames_iff {names : List Named} {trailing : Bool}
    (hclause : d.clause = .exportNames names trailing) :
    readReExport (d.text ++ after) = some v ↔ d.Extractable ∧ v = (d.quoted.specifier, after) := by
  obtain ⟨ps, g, g', hspaced, hps, hblank, hg, hg'⟩ := d.exists_spaced
  rw [hclause] at hps
  obtain ⟨⟨g₀, e⟩, qs, rfl, rfl, hqs⟩ := List.map_eq_cons_iff.mp hps
  obtain ⟨rs, ss, rfl, hrs, hss⟩ := List.map_eq_append_iff.mp hqs
  obtain ⟨⟨g₁, e⟩, ts, rfl, rfl, hts⟩ := List.map_eq_cons_iff.mp hss
  obtain rfl := List.map_eq_nil_iff.mp hts
  have hextractable : d.Extractable ↔ g₀ ≠ [] ∧ d.quoted.specifier ≠ [] := by
    simp [extractable_iff, gaps, hspaced, hclause, Clause.demands, Clause.takesAny, and_comm]
  have htext : d.text ++ after = "export".toList ++ (g₀ ++ '\x7b' :: (spell rs ++ g₁ ++ '\x7d' ::
      (g ++ ("from".toList ++ (g' ++ (d.quoted.chars ++ after)))))) := by
    rw [text_append hspaced, hclause]
    simp [Clause.keyword, Element.chars]
  have hinner : '\x7d' ∉ spell rs ++ g₁ := by
    have hgap : ∀ p ∈ (g₀, .opening) :: (rs ++ [(g₁, .closing)]), '\x7d' ∉ p.1 := fun p hp hc =>
      absurd (List.all_eq_true.mp (hblank p hp) _ hc) (by decide)
    have hspell : ∀ c ∈ spell rs, c ≠ '\x7d' := by
      refine forall_mem_spell.mpr fun p hp => ⟨?_, ?_⟩
      · rintro c hc rfl
        exact hgap p (List.mem_cons_of_mem _ (List.mem_append_left _ hp)) hc
      · rintro c hc rfl
        exact Element.not_mem_of_mem_listed (hrs ▸ List.mem_map_of_mem hp) hc
    rw [List.mem_append, not_or]
    exact ⟨fun hc => hspell _ hc rfl,
      hgap (g₁, .closing) (List.mem_cons_of_mem _ (List.mem_append_right _ List.mem_cons_self))⟩
  rw [htext, readReExport_append (hblank _ List.mem_cons_self) (by decide) (by decide),
    readExportClause_braces hinner hg hg', Quoted.told_eq_some_iff, hextractable, and_assoc]

theorem readReExport_iff (hkind : d.clause.kind = .reExport) :
    readReExport (d.text ++ after) = some v ↔ d.Extractable ∧ v = (d.quoted.specifier, after) := by
  cases hclause : d.clause with
  | exportAll => exact readReExport_exportAll_iff hclause
  | exportAllAs name => exact readReExport_exportAllAs_iff hclause
  | exportNames names trailing => exact readReExport_exportNames_iff hclause
  | _ => rw [hclause] at hkind; cases hkind

end

/-! ### All forms -/

theorem read_iff {d : Declaration} {after : List Char} {v : List Char × List Char} :
    d.clause.kind.read (d.text ++ after) = some v ↔ d.Extractable ∧ v = (d.quoted.specifier, after) := by
  cases hclause : d.clause with
  | importDefault | importNames | importAll => exact readImportFrom_iff (by rw [hclause]; rfl)
  | exportAll | exportAllAs | exportNames => exact readReExport_iff (by rw [hclause]; rfl)

end Declaration

end ModuleBundler
