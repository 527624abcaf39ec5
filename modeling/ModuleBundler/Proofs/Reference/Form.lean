import ModuleBundler.Proofs.Reference.Reading

/-!
# Reading the forms of a reference

Each form is read from left to right by a function that never goes back. In two places a run does not end where its
characters end: the word `from` consists of characters that a clause and a name may have too. There is no second way
to read these either: a clause has to end in the last `from` before the quote (`endsInFrom_iff`), and a name gives no
letters to `from` or its last four (`exists_name_iff`).

So the functions read the patterns, and every pattern can be read in one way (`ReferenceKind.takes_iff`).
-/

namespace ModuleBundler

open Text Pattern

/-! ### Words and quotes -/

theorem dropWord?_eq_none {word cs : List Char} (h : ∀ rest, cs ≠ word ++ rest) : dropWord? word cs = none :=
  Option.eq_none_iff_forall_ne_some.mpr fun rest hr => h rest (dropWord?_eq_some_iff.mp hr)

theorem dropWord?_append (word rest : List Char) : dropWord? word (word ++ rest) = some rest :=
  dropWord?_eq_some_iff.mpr rfl

/-- A word avoids the characters that it does not begin with. -/
theorem avoids_dropWord? {c : Char} {word : List Char} {holds : Char → Bool} {g : Reader} (hc : holds c = false) :
    Reader.Avoids (fun cs => (dropWord? (c :: word) cs).bind g) holds := by
  intro c' cs h
  have hne : c ≠ c' := by
    rintro rfl
    rw [h] at hc
    cases hc
  simp [dropWord?, hne]

theorem avoids_readQuoted {quotes : List Char} {holds : Char → Bool} (h : quotes.any holds = false) :
    Reader.Avoids (readQuoted quotes) holds := by
  intro c cs hc
  have hq : c ∉ quotes := fun hm => List.any_eq_false.mp h c hm hc
  unfold readQuoted
  simp only [List.contains_eq_mem, hq, decide_false, Bool.false_and, Bool.false_eq_true, if_false]
  split <;> rfl

/-- What may stand between two quotes. -/
def isInside (quotes : List Char) (c : Char) : Bool := !quotes.contains c && c != '\n'

theorem readBy_inQuotes (quotes : List Char) : ReadBy (inQuotes quotes) (readQuoted quotes) := by
  have hstop : Reader.Avoids (readOne quotes.contains) (isInside quotes) := by
    intro c cs hc
    have hq : quotes.contains c = false := by simpa [isInside] using (Bool.and_eq_true_iff.mp hc).1
    simp only [readOne, hq, Bool.false_eq_true, if_false]
  have hclose : ReadBy (.seq (.group (.run 1 (isInside quotes))) (.one quotes.contains)) _ :=
    (ReadBy.one quotes.contains).group_run_seq hstop
  refine ((ReadBy.one quotes.contains).seq hclose).congr fun cs => ?_
  have hinside : (fun c => !quotes.contains c && c != '\n') = isInside quotes := rfl
  cases cs with
  | nil => rfl
  | cons q rest =>
    simp only [readQuoted, hinside]
    by_cases hq : q ∈ quotes
    · cases hd : rest.dropWhile (isInside quotes) with
      | nil => simp [readOne, hq, hd]
      | cons q' after =>
        have hpos : 1 ≤ (rest.takeWhile (isInside quotes)).length ↔ rest.takeWhile (isInside quotes) ≠ [] := by
          cases rest.takeWhile (isInside quotes) <;> simp
        by_cases hq' : q' ∈ quotes <;> simp [readOne, hq, hd, hq', hpos]
    · cases rest.dropWhile (isInside quotes) <;> simp [readOne, hq]

theorem readBy_blanks_inQuotes {quotes : List Char} (hq : quotes.any isBlank = false) :
    ReadBy (.seq blanks (inQuotes quotes)) fun cs => readQuoted quotes (trimStart cs) :=
  (readBy_inQuotes quotes).blanks_seq (avoids_readQuoted hq)

/-! ### Forms that need no care -/

/-- What every form with `from` ends in. -/
abbrev fromQuoted : Pattern := inOrder [blanks, .text "from".toList, blanks, inQuotes declarationQuotes]

theorem readBy_from : ReadBy fromQuoted readFrom :=
  ((readBy_blanks_inQuotes (by decide)).text_seq "from".toList).blanks_seq (avoids_dropWord? (by decide))

theorem readBy_sideEffectImport :
    ReadBy (inOrder [.text "import".toList, blanks, inQuotes declarationQuotes]) readSideEffectImport :=
  (readBy_blanks_inQuotes (by decide)).text_seq "import".toList

theorem readBy_call (keyword : List Char) :
    ReadBy (inOrder [.text keyword, blanks, .text ['('], blanks, inQuotes callQuotes, blanks, .text [')']])
      (readCall keyword) := by
  have hclose := (ReadBy.text [')']).blanks_seq (avoids_dropWord? (by decide))
  have hquoted := ((readBy_inQuotes callQuotes).seq hclose).blanks_seq ((avoids_readQuoted (by decide)).bind _)
  have hopen := (hquoted.text_seq ['(']).blanks_seq (avoids_dropWord? (by decide))
  refine (hopen.text_seq keyword).congr fun cs => ?_
  unfold readCall
  simp only [Option.bind_eq_bind]
  cases dropWord? keyword cs with
  | none => rfl
  | some cs =>
    simp only [Option.bind_some]
    split
    next rest hrest =>
      rw [hrest, show '(' :: rest = ['('] ++ rest from rfl, dropWord?_append, Option.bind_some]
      congr 1
      funext v
      split
      next after hafter =>
        rw [hafter, show ')' :: after = [')'] ++ after from rfl, dropWord?_append]
        simp
      next hnone =>
        rw [dropWord?_eq_none hnone]
        rfl
    next hnone =>
      rw [dropWord?_eq_none hnone]
      rfl

/-! ### Clauses of imports -/

theorem isClauseChar_of_isBlank {c : Char} (h : isBlank c = true) : isClauseChar c = true := by
  simp [isClauseChar, h]

/-- A clause ends in `from` when this is its last word, and when there is a blank and one character more before
it. -/
theorem endsInFrom_iff {clause : List Char} : endsInFrom clause = true ↔
    ∃ front back, clause = front ++ ("from".toList ++ back) ∧ back.all isBlank = true ∧
      front.head?.any isBlank = true ∧ opensWord front.getLast? = true ∧ 2 ≤ front.length := by
  unfold endsInFrom
  constructor
  · intro h
    obtain ⟨hhead, h⟩ := Bool.and_eq_true_iff.mp h
    split at h
    next before hbefore =>
      obtain ⟨hopens, hlength⟩ := Bool.and_eq_true_iff.mp h
      have hclause : clause = before.reverse ++ ("from".toList ++ (clause.reverse.takeWhile isBlank).reverse) := by
        have hsplit := List.takeWhile_append_dropWhile (p := isBlank) (l := clause.reverse)
        rw [dropWord?_eq_some_iff.mp hbefore] at hsplit
        simpa using congrArg List.reverse hsplit.symm
      have hlength : 2 ≤ before.length := of_decide_eq_true hlength
      refine ⟨_, _, hclause, ?_, ?_, ?_, by simpa using hlength⟩
      · rw [List.all_reverse]
        exact List.all_takeWhile
      · have hne : before.reverse ≠ [] := by
          rintro he
          simp [List.reverse_eq_nil_iff.mp he] at hlength
        rwa [hclause, List.head?_append_of_ne_nil _ hne] at hhead
      · rwa [List.getLast?_reverse]
    next => cases h
  · rintro ⟨front, back, rfl, hback, hhead, hopens, hlength⟩
    have hdrop : (front ++ ("from".toList ++ back)).reverse.dropWhile isBlank =
        "morf".toList ++ front.reverse := by
      have hreverse : (front ++ ("from".toList ++ back)).reverse =
          back.reverse ++ ("morf".toList ++ front.reverse) := by simp
      rw [hreverse]
      refine dropWhile_append_of_stop (fun c hc => ?_) fun c hc => ?_
      · exact List.all_eq_true.mp hback c (List.mem_reverse.mp hc)
      · obtain rfl := Option.some.inj hc
        decide
    have hne : front ≠ [] := by
      rintro rfl
      cases hhead
    rw [hdrop, dropWord?_append, List.head?_append_of_ne_nil _ hne, hhead]
    simp only [Bool.true_and, List.head?_reverse, hopens, List.length_reverse, decide_eq_true_eq]
    exact hlength

/-- A word that begins with a character of words begins at a boundary if none stands before it. -/
theorem Cursor.atBoundary_iff {x : Cursor} (h : x.after.head?.any isWordChar = true) :
    x.AtBoundary ↔ opensWord x.before.head? = true := by
  unfold AtBoundary opensWord
  rw [h]
  cases x.before.head?.any isWordChar <;> simp

/-- The parts of an import clause, one after the other in the text. -/
theorem takes_importClause_iff {x : Cursor} {found rest : List Char} :
    (inOrder [someBlanks, .run 1 isClauseChar, blanks, .boundary, .text "from".toList, blanks,
      inQuotes declarationQuotes]).Takes x found rest ↔
    ∃ s₁ s₂ s₃ s₄ cs, x.after = s₁ ++ (s₂ ++ (s₃ ++ ("from".toList ++ (s₄ ++ cs)))) ∧
      1 ≤ s₁.length ∧ s₁.all isBlank = true ∧ 1 ≤ s₂.length ∧ s₂.all isClauseChar = true ∧
      s₃.all isBlank = true ∧ opensWord (s₁ ++ s₂ ++ s₃).getLast? = true ∧ s₄.all isBlank = true ∧
      readQuoted declarationQuotes cs = some (found, rest) := by
  -- where `from` begins, the nearest character before it is the last one of the parts before it
  have hboundary : ∀ {s₁ s₂ s₃ before cs : List Char}, 1 ≤ s₁.length →
      ((⟨s₃.reverse ++ (s₂.reverse ++ (s₁.reverse ++ before)), "from".toList ++ cs⟩ : Cursor).AtBoundary ↔
        opensWord (s₁ ++ s₂ ++ s₃).getLast? = true) := by
    intro s₁ s₂ s₃ before cs hl
    have hne : (s₁ ++ s₂ ++ s₃).reverse ≠ [] := by
      rintro he
      simp only [List.reverse_eq_nil_iff, List.append_eq_nil_iff] at he
      simp [he.1.1] at hl
    have hbefore : s₃.reverse ++ (s₂.reverse ++ (s₁.reverse ++ before)) = (s₁ ++ s₂ ++ s₃).reverse ++ before := by
      simp
    rw [Cursor.atBoundary_iff rfl, hbefore, List.head?_append_of_ne_nil _ hne, List.head?_reverse]
  simp only [inOrder, blanks, someBlanks, takes_run_seq_iff, takes_boundary_seq_iff, takes_text_seq_iff,
    readBy_inQuotes _ _ _ _]
  constructor
  · rintro ⟨s₁, _, hx, hl₁, hs₁, s₂, _, rfl, hl₂, hs₂, s₃, _, rfl, -, hs₃, hb, _, rfl, s₄, cs, rfl, -, hs₄, hq⟩
    exact ⟨s₁, s₂, s₃, s₄, cs, hx, hl₁, hs₁, hl₂, hs₂, hs₃, (hboundary hl₁).mp hb, hs₄, hq⟩
  · rintro ⟨s₁, s₂, s₃, s₄, cs, hx, hl₁, hs₁, hl₂, hs₂, hs₃, hopens, hs₄, hq⟩
    exact ⟨s₁, _, hx, hl₁, hs₁, s₂, _, rfl, hl₂, hs₂, s₃, _, rfl, Nat.zero_le _, hs₃,
      (hboundary hl₁).mpr hopens, _, rfl, s₄, cs, rfl, Nat.zero_le _, hs₄, hq⟩

theorem readBy_importClause :
    ReadBy (inOrder [someBlanks, .run 1 isClauseChar, blanks, .boundary, .text "from".toList, blanks,
      inQuotes declarationQuotes]) fun cs =>
        if endsInFrom (cs.takeWhile isClauseChar) then readQuoted declarationQuotes (cs.dropWhile isClauseChar)
        else none := by
  have hquotes : declarationQuotes.any isClauseChar = false := by decide
  have hblank : ∀ {s : List Char}, s.all isBlank = true → s.all isClauseChar = true := fun h =>
    List.all_eq_true.mpr fun c hc => isClauseChar_of_isBlank (List.all_eq_true.mp h c hc)
  intro x found rest
  rw [Option.ite_none_right_eq_some, takes_importClause_iff]
  constructor
  · rintro ⟨s₁, s₂, s₃, s₄, cs, hx, hl₁, hs₁, hl₂, hs₂, hs₃, hopens, hs₄, hq⟩
    have hstop := (avoids_readQuoted hquotes).head?_eq hq
    have hclause : ∀ c ∈ s₁ ++ s₂ ++ s₃ ++ ("from".toList ++ s₄), isClauseChar c = true := by
      have hfrom : "from".toList.all isClauseChar = true := by decide
      rw [← List.all_eq_true]
      simp only [List.all_append, hblank hs₁, hs₂, hblank hs₃, hfrom, hblank hs₄, Bool.and_self]
    have hsplit : x.after = s₁ ++ s₂ ++ s₃ ++ ("from".toList ++ s₄) ++ cs := by
      rw [hx]
      simp
    rw [hsplit, takeWhile_append_of_stop hclause hstop, dropWhile_append_of_stop hclause hstop]
    refine ⟨endsInFrom_iff.mpr ⟨s₁ ++ s₂ ++ s₃, s₄, rfl, hs₄, ?_, hopens, ?_⟩, hq⟩
    · obtain ⟨c, s, rfl⟩ := List.exists_cons_of_length_pos hl₁
      exact List.all_eq_true.mp hs₁ c List.mem_cons_self
    · simp only [List.length_append]
      omega
  · rintro ⟨hends, hq⟩
    obtain ⟨front, back, hclause, hback, hhead, hopens, hlength⟩ := endsInFrom_iff.mp hends
    -- the first blank alone can be the one after `import`
    obtain ⟨c, front, rfl⟩ := List.exists_cons_of_length_pos (Nat.lt_of_lt_of_le Nat.zero_lt_two hlength)
    have hall : (c :: front ++ ("from".toList ++ back)).all isClauseChar = true := hclause ▸ List.all_takeWhile
    simp only [List.all_append, Bool.and_eq_true, List.all_cons] at hall
    refine ⟨[c], front, [], back, _, ?_, Nat.le_refl 1, by simpa using hhead, by simpa using hlength, hall.1.2, rfl,
      by simpa using hopens, hback, hq⟩
    have hsplit := List.takeWhile_append_dropWhile (p := isClauseChar) (l := x.after)
    rw [hclause] at hsplit
    exact hsplit.symm.trans (by simp)

/-- `import`, a clause, and a quoted specifier. -/
theorem readBy_importFrom :
    ReadBy (inOrder [.text "import".toList, someBlanks, .run 1 isClauseChar, blanks, .boundary,
      .text "from".toList, blanks, inQuotes declarationQuotes]) readImportFrom :=
  readBy_importClause.text_seq "import".toList

/-! ### Names before `from` -/

/-- The code points of blanks. -/
def blankCodes : List Nat := blankRanges.flatMap fun r => List.range' r.1 (r.2 + 1 - r.1)

/-- No blank is a character of names. -/
theorem isNameChar_of_isBlank {c : Char} (h : isBlank c = true) : isNameChar c = false := by
  have hcodes : blankCodes.all fun n => !isNameChar (Char.ofNat n) := by decide +kernel
  have hmem : c.toNat ∈ blankCodes := by
    obtain ⟨r, hr, hl, hu⟩ := inRanges_eq_true_iff.mp h
    exact List.mem_flatMap.mpr ⟨r, hr, List.mem_range'_1.mpr ⟨hl, by omega⟩⟩
  simpa using List.all_eq_true.mp hcodes c.toNat hmem

/-- A name, `from` and a quoted specifier. -/
def readNameFrom : Reader := fun cs =>
  let name := cs.takeWhile isNameChar
  let after := cs.dropWhile isNameChar
  if name.isEmpty then none
  else readFrom after <|> do
    let before ← dropWord? "morf".toList name.reverse
    if before.isEmpty then none else readQuoted declarationQuotes (trimStart after)

theorem readFrom_eq_some_iff {cs : List Char} {v : List Char × List Char} : readFrom cs = some v ↔
    ∃ cs', trimStart cs = "from".toList ++ cs' ∧ readQuoted declarationQuotes (trimStart cs') = some v := by
  simp only [readFrom, Option.bind_eq_bind, Option.bind_eq_some_iff, dropWord?_eq_some_iff]

theorem readNameFrom_eq_some_iff {cs : List Char} {v : List Char × List Char} : readNameFrom cs = some v ↔
    cs.takeWhile isNameChar ≠ [] ∧ (readFrom (cs.dropWhile isNameChar) = some v ∨
      ∃ name, name ≠ [] ∧ cs.takeWhile isNameChar = name ++ "from".toList ∧
        readQuoted declarationQuotes (trimStart (cs.dropWhile isNameChar)) = some v) := by
  have hword : ∀ {name s : List Char}, dropWord? "morf".toList name.reverse = some s ↔
      name = s.reverse ++ "from".toList := by
    intro name s
    rw [dropWord?_eq_some_iff, List.reverse_eq_iff, List.reverse_append]
    rfl
  have hone : (readFrom (cs.dropWhile isNameChar)).isSome = true →
      (dropWord? "morf".toList (cs.takeWhile isNameChar).reverse).bind (fun before =>
        if before.isEmpty then none
        else readQuoted declarationQuotes (trimStart (cs.dropWhile isNameChar))) = none := by
    intro h
    obtain ⟨v, hv⟩ := Option.isSome_iff_exists.mp h
    obtain ⟨cs', hcs', -⟩ := readFrom_eq_some_iff.mp hv
    have havoids : Reader.Avoids (readQuoted declarationQuotes) (· == 'f') := avoids_readQuoted (by decide)
    have hquote : readQuoted declarationQuotes ("from".toList ++ cs') = none := havoids 'f' _ rfl
    rw [hcs', hquote]
    cases dropWord? "morf".toList (cs.takeWhile isNameChar).reverse <;> simp
  unfold readNameFrom
  simp only [Option.bind_eq_bind, List.isEmpty_iff, Option.ite_none_left_eq_some, ne_eq]
  refine and_congr_right fun _ => (orElse_eq_some_iff ?_).trans (or_congr_right ?_)
  · simpa only [List.isEmpty_iff] using hone
  · simp only [Option.bind_eq_some_iff, Option.ite_none_left_eq_some, hword]
    constructor
    · rintro ⟨before, hname, hne, hread⟩
      exact ⟨before.reverse, by simpa using hne, hname, hread⟩
    · rintro ⟨name, hne, hname, hread⟩
      exact ⟨name.reverse, by rw [hname, List.reverse_reverse], by simpa using hne, hread⟩

/-- Before `from` there are blanks, or there is nothing. -/
theorem readFrom_cases {cs : List Char} {v : List Char × List Char} (h : readFrom cs = some v) :
    cs.head?.any isBlank = true ∨
      ∃ cs', cs = "from".toList ++ cs' ∧ readQuoted declarationQuotes (trimStart cs') = some v := by
  obtain ⟨cs', htrim, hquoted⟩ := readFrom_eq_some_iff.mp h
  cases cs with
  | nil => cases htrim
  | cons c cs =>
    cases hc : isBlank c with
    | true => exact .inl hc
    | false =>
      rw [trimStart, List.dropWhile_cons_of_neg (by simp [hc])] at htrim
      exact .inr ⟨cs', htrim, hquoted⟩

/-- A name ends before the blanks and before the quote that come after it. -/
theorem isNameChar_of_readQuoted {cs : List Char} {v : List Char × List Char}
    (h : readQuoted declarationQuotes (trimStart cs) = some v) (c : Char) (hc : cs.head? = some c) :
    isNameChar c = false := by
  cases hb : isBlank c with
  | true => exact isNameChar_of_isBlank hb
  | false =>
    obtain ⟨cs, rfl⟩ := List.head?_eq_some_iff.mp hc
    rw [trimStart, List.dropWhile_cons_of_neg (by simp [hb])] at h
    exact (avoids_readQuoted (by decide)).head?_eq h c rfl

/-- A name gives no letters to `from`, or it gives its last four. -/
theorem exists_name_iff {cs : List Char} {v : List Char × List Char} :
    readNameFrom cs = some v ↔
      ∃ s cs', cs = s ++ cs' ∧ 1 ≤ s.length ∧ s.all isNameChar = true ∧ readFrom cs' = some v := by
  rw [readNameFrom_eq_some_iff]
  constructor
  · rintro ⟨hne, hread | ⟨name, hname, htake, hread⟩⟩
    · exact ⟨_, _, List.takeWhile_append_dropWhile.symm, List.length_pos_of_ne_nil hne, List.all_takeWhile, hread⟩
    · have hsplit := List.takeWhile_append_dropWhile (p := isNameChar) (l := cs)
      have hall : (name ++ "from".toList).all isNameChar = true := htake ▸ List.all_takeWhile
      rw [htake, List.append_assoc] at hsplit
      rw [List.all_append, Bool.and_eq_true] at hall
      refine ⟨name, _, hsplit.symm, List.length_pos_of_ne_nil hname, hall.1, ?_⟩
      exact readFrom_eq_some_iff.mpr ⟨_, rfl, hread⟩
  · rintro ⟨s, cs', rfl, hl, ha, hread⟩
    have hs : s ≠ [] := List.ne_nil_of_length_pos hl
    rcases readFrom_cases hread with hblank | ⟨cs', rfl, hquoted⟩
    · -- a blank ends the name
      have hstop : ∀ c, cs'.head? = some c → isNameChar c = false := fun c hc =>
        isNameChar_of_isBlank (by rwa [hc] at hblank)
      have ha := List.all_eq_true.mp ha
      rw [takeWhile_append_of_stop ha hstop, dropWhile_append_of_stop ha hstop]
      exact ⟨hs, .inl hread⟩
    · -- the letters of `from` belong to the name
      have hstop := isNameChar_of_readQuoted hquoted
      have hall : (s ++ "from".toList).all isNameChar = true := by
        rw [List.all_append, ha]
        decide
      have hall := List.all_eq_true.mp hall
      rw [← List.append_assoc, takeWhile_append_of_stop hall hstop, dropWhile_append_of_stop hall hstop]
      exact ⟨by simp, .inr ⟨s, hs, rfl, hquoted⟩⟩

theorem readBy_nameFrom : ReadBy (.seq (.run 1 isNameChar) fromQuoted) readNameFrom :=
  readBy_from.run_seq_of_iff fun _ _ => exists_name_iff

/-! ### Exports from another module -/

/-- What stands after `export`, and `type` if it is there. -/
def exportClause : Pattern :=
  .either
    (inOrder [.text ['*'], .optional (inOrder [someBlanks, .text "as".toList, someBlanks, .run 1 isNameChar])])
    (inOrder [.text ['\x7b'], .run 0 (· != '\x7d'), .text ['\x7d']])

/-- A star with or without a name or a list in braces, `from` and a quoted specifier. -/
def readExportClause : Reader
  | '*' :: rest => readAsFrom rest <|> readFrom rest
  | '\x7b' :: rest =>
    match rest.dropWhile (· != '\x7d') with
    | _ :: rest => readFrom rest
    | [] => none
  | _ => none

theorem readBy_asFrom :
    ReadBy (.seq (inOrder [someBlanks, .text "as".toList, someBlanks, .run 1 isNameChar]) fromQuoted)
      readAsFrom := by
  have hname : Reader.Avoids readNameFrom isBlank := by
    intro c cs hc
    simp [readNameFrom, isNameChar_of_isBlank hc]
  have has := (readBy_nameFrom.someBlanks_seq hname).assoc.text_seq "as".toList
  exact (has.assoc.someBlanks_seq (avoids_dropWord? (by decide))).assoc

theorem readBy_starFrom :
    ReadBy (.seq (inOrder [.text ['*'], .optional (inOrder [someBlanks, .text "as".toList, someBlanks,
      .run 1 isNameChar])]) fromQuoted) fun cs =>
        (dropWord? ['*'] cs).bind fun cs => readAsFrom cs <|> readFrom cs := by
  refine ((readBy_asFrom.optional_seq readBy_from fun cs h => ?_).text_seq ['*']).assoc
  -- what goes on with `as` does not go on with `from`
  obtain ⟨v, hv⟩ := Option.isSome_iff_exists.mp h
  simp only [readAsFrom, Option.bind_eq_bind, Option.bind_eq_some_iff, afterBlanks?] at hv
  obtain ⟨rest, hrest, rest', has, -⟩ := hv
  obtain rfl : trimStart cs = rest := Option.some.inj (Option.ite_none_right_eq_some.mp hrest).2
  rw [readFrom, dropWord?_eq_some_iff.mp has]
  rfl

theorem readBy_bracesFrom :
    ReadBy (.seq (inOrder [.text ['\x7b'], .run 0 (· != '\x7d'), .text ['\x7d']]) fromQuoted) fun cs =>
      (dropWord? ['\x7b'] cs).bind fun cs =>
        (dropWord? ['\x7d'] (cs.dropWhile (· != '\x7d'))).bind readFrom := by
  have hclose : ReadBy (.seq (.run 0 (· != '\x7d')) (.seq (.text ['\x7d']) fromQuoted)) _ :=
    (readBy_from.text_seq ['\x7d']).run_seq (avoids_dropWord? (by decide))
  refine ((hclose.assoc.text_seq ['\x7b']).assoc).congr fun cs => ?_
  simp

theorem readBy_exportClause : ReadBy (.seq exportClause fromQuoted) readExportClause := by
  refine (readBy_starFrom.either_seq readBy_bracesFrom fun cs h => ?_).congr fun cs => ?_
  · cases cs with
    | nil => rfl
    | cons c cs =>
      obtain rfl : '*' = c := by
        by_contra hc
        simp [dropWord?, hc] at h
      rfl
  · unfold readExportClause
    split
    next rest =>
      show ((readAsFrom rest <|> readFrom rest) <|> none) = (readAsFrom rest <|> readFrom rest)
      simp only [Option.orElse_eq_orElse, Option.orElse_eq_or, Option.or_none]
    next rest =>
      show (dropWord? ['\x7d'] (rest.dropWhile (· != '\x7d'))).bind readFrom = _
      cases hd : rest.dropWhile (· != '\x7d') with
      | nil => rfl
      | cons c after =>
        have hc := List.head?_dropWhile_not (· != '\x7d') rest
        obtain rfl : c = '\x7d' := by simpa [hd] using hc
        rfl
    next hstar hbrace =>
      rw [dropWord?_eq_none hstar, dropWord?_eq_none hbrace]
      rfl

/-- A clause begins with a star or a brace. -/
theorem avoids_readExportClause {holds : Char → Bool} (hs : holds '*' = false) (hb : holds '\x7b' = false) :
    Reader.Avoids readExportClause holds := by
  intro c cs hc
  unfold readExportClause
  split
  next h => simp [(List.cons.inj h).1, hs] at hc
  next h => simp [(List.cons.inj h).1, hb] at hc
  next => rfl

/-- Perhaps `type`, and a clause. -/
def readTypeClause : Reader := fun cs =>
  readExportClause (((dropWord? "type".toList cs).bind afterBlanks?).getD cs)

theorem readBy_typeClause :
    ReadBy (.seq (.optional (inOrder [.text "type".toList, someBlanks])) (.seq exportClause fromQuoted))
      readTypeClause := by
  have hblank : Reader.Avoids readExportClause isBlank := avoids_readExportClause (by decide) (by decide)
  -- a text that begins with `type` does not begin with a clause
  have hone : ∀ {cs rest : List Char}, dropWord? "type".toList cs = some rest → readExportClause cs = none := by
    intro cs rest h
    rw [dropWord?_eq_some_iff.mp h]
    rfl
  have htype := ((readBy_exportClause.someBlanks_seq hblank).text_seq "type".toList).assoc
  refine (htype.optional_seq readBy_exportClause fun cs h => ?_).congr fun cs => ?_
  · obtain ⟨v, hv⟩ := Option.isSome_iff_exists.mp h
    obtain ⟨rest, hrest, -⟩ := Option.bind_eq_some_iff.mp hv
    exact hone hrest
  · unfold readTypeClause
    cases hrest : dropWord? "type".toList cs with
    | none => simp
    | some rest =>
      rw [Option.bind_some, Option.bind_some]
      cases afterBlanks? rest with
      | none => simp [hone hrest]
      | some rest => simp [hone hrest]

/-- `export`, perhaps `type`, a clause, `from` and a quoted specifier. -/
theorem readBy_reExport :
    ReadBy (.seq (.text "export".toList) (.seq someBlanks
      (.seq (.optional (inOrder [.text "type".toList, someBlanks])) (.seq exportClause fromQuoted))))
      readReExport := by
  have hblank : Reader.Avoids readTypeClause isBlank := by
    intro c cs hc
    have htype : dropWord? "type".toList (c :: cs) = none := dropWord?_eq_none fun rest h => by
      rw [(List.cons.inj h).1] at hc
      exact absurd hc (by decide)
    rw [readTypeClause, htype]
    exact avoids_readExportClause (by decide) (by decide) c cs hc
  exact (readBy_typeClause.someBlanks_seq hblank).text_seq "export".toList

/-! ### All forms -/

/-- What begins with a word can be read where a word can begin. -/
theorem ReadBy.boundary_seq {p : Pattern} {keyword : List Char} {g : Reader}
    (hp : ReadBy p fun cs => (dropWord? keyword cs).bind g) (hk : keyword.head?.any isWordChar = true)
    (x : Cursor) (found rest : List Char) :
    (Pattern.seq .boundary p).Takes x found rest ↔
      opensWord x.before.head? = true ∧ (dropWord? keyword x.after).bind g = some (found, rest) := by
  rw [takes_boundary_seq_iff, hp]
  refine and_congr_left fun hread => Cursor.atBoundary_iff ?_
  obtain ⟨cs, hcs, -⟩ := Option.bind_eq_some_iff.mp hread
  have hne : keyword ≠ [] := by
    rintro rfl
    cases hk
  rwa [dropWord?_eq_some_iff.mp hcs, List.head?_append_of_ne_nil _ hne]

/-- From a place every form can be read in one way at most, the one that its function finds. -/
theorem ReferenceKind.takes_iff (kind : ReferenceKind) {x : Cursor} {found rest : List Char} :
    kind.pattern.Takes x found rest ↔
      opensWord x.before.head? = true ∧ kind.read x.after = some (found, rest) := by
  cases kind with
  | require => exact (readBy_call "require".toList).boundary_seq (by decide) x found rest
  | importFrom => exact readBy_importFrom.boundary_seq (by decide) x found rest
  | sideEffectImport => exact readBy_sideEffectImport.boundary_seq (by decide) x found rest
  | dynamicImport => exact (readBy_call "import".toList).boundary_seq (by decide) x found rest
  | reExport => exact readBy_reExport.boundary_seq (by decide) x found rest

end ModuleBundler
