import Mathlib.Data.Nat.Find
import ModuleBundler.Proofs.Minify.Collapse

/-!
# Lexemes

What a reader of code takes for one symbol: a word, a number with a dot, an operator of two signs, or any other
single character. A text is split into lexemes by maximal munch: of the lexemes that it begins with, the longest one
is taken, and what is left is split the same way. This is said by a relation, `Munches`, and every text has one
splitting, which `lexemes` works out (`munches_iff`).
-/

namespace ModuleBundler.Minify

open Text

/-! ### Blanks are not in words -/

theorem isWordLike_of_isBlank {c : Char} (h : isBlank c = true) : isWordLike c = false := by
  have hblanks : (blankRanges.all fun r => (List.range' r.1 (r.2 + 1 - r.1)).all fun n =>
      !isWordLike (Char.ofNat n)) = true := by decide +kernel
  obtain ⟨r, hr, hl, hu⟩ := inRanges_eq_true_iff.mp h
  have hc := List.all_eq_true.mp (List.all_eq_true.mp hblanks r hr) c.toNat
    (List.mem_range'_1.mpr ⟨hl, by omega⟩)
  rwa [Char.ofNat_toNat, Bool.not_eq_true'] at hc

theorem isBlank_of_isWordLike {c : Char} (h : isWordLike c = true) : isBlank c = false := by
  refine Bool.eq_false_iff.mpr fun hb => ?_
  rw [isWordLike_of_isBlank hb] at h
  cases h

theorem isWordLike_of_isDecimal {c : Char} (h : isDecimal c = true) : isWordLike c = true := by
  simp [isWordLike, h]

/-! ### Lexemes -/

/-- A text that is one symbol of code. -/
inductive Lexeme : List Char → Prop where
  | word {w : List Char} : w ≠ [] → (∀ c ∈ w, isWordLike c = true) → Lexeme w
  /-- A number with digits on both sides of the dot. A number without a dot is a word. -/
  | decimal {ds es : List Char} : ds ≠ [] → es ≠ [] → (∀ c ∈ ds, isDecimal c = true) →
      (∀ c ∈ es, isDecimal c = true) → Lexeme (ds ++ '.' :: es)
  | increment : Lexeme ['+', '+']
  | decrement : Lexeme ['-', '-']
  | char {c : Char} : isBlank c = false → Lexeme [c]

/-- Whether `cs` is a number with digits on both sides of a dot. -/
def isDottedNumber (cs : List Char) : Bool :=
  match cs.dropWhile isDecimal with
  | '.' :: es => cs.head?.any isDecimal && !es.isEmpty && es.all isDecimal
  | _ => false

/-- Whether `cs` is a lexeme. -/
def isLexeme (cs : List Char) : Bool :=
  (!cs.isEmpty && cs.all isWordLike) || isDottedNumber cs || cs == ['+', '+'] || cs == ['-', '-']
    || (cs.length == 1 && cs.all (!isBlank ·))

theorem isDottedNumber_iff {cs : List Char} : isDottedNumber cs = true ↔
    ∃ ds es, ds ≠ [] ∧ es ≠ [] ∧ (∀ c ∈ ds, isDecimal c = true) ∧ (∀ c ∈ es, isDecimal c = true) ∧
      cs = ds ++ '.' :: es := by
  constructor
  · intro h
    unfold isDottedNumber at h
    split at h
    next es hdrop =>
      simp only [Bool.and_eq_true, Bool.not_eq_true', List.isEmpty_eq_false_iff, List.all_eq_true] at h
      obtain ⟨⟨hhead, hne⟩, hes⟩ := h
      refine ⟨cs.takeWhile isDecimal, es, ?_, hne, fun c hc => List.mem_takeWhile_imp hc, hes, ?_⟩
      · cases cs with
        | nil => cases hhead
        | cons c cs =>
          rw [List.takeWhile_cons_of_pos (by simpa using hhead)]
          exact List.cons_ne_nil _ _
      · rw [← hdrop, List.takeWhile_append_dropWhile]
    next => cases h
  · rintro ⟨ds, es, hds, hes, hd, he, rfl⟩
    have hdot : ∀ c, ('.' :: es).head? = some c → isDecimal c = false := by
      intro c hc
      obtain rfl := Option.some.inj hc
      decide
    have hhead : (ds ++ '.' :: es).head?.any isDecimal = true := by
      obtain ⟨d, ds, rfl⟩ := List.exists_cons_of_ne_nil hds
      exact hd d List.mem_cons_self
    unfold isDottedNumber
    rw [dropWhile_append_of_stop hd hdot]
    simp only [hhead, Bool.true_and, Bool.and_eq_true, Bool.not_eq_true', List.isEmpty_eq_false_iff,
      List.all_eq_true]
    exact ⟨hes, he⟩

theorem isLexeme_iff {cs : List Char} : isLexeme cs = true ↔ Lexeme cs := by
  simp only [isLexeme, Bool.or_eq_true, isDottedNumber_iff, Bool.and_eq_true, Bool.not_eq_true',
    List.isEmpty_eq_false_iff, List.all_eq_true, beq_iff_eq, List.length_eq_one_iff]
  constructor
  · rintro ((((⟨hne, hw⟩ | ⟨ds, es, hds, hes, hd, he, rfl⟩) | rfl) | rfl) | ⟨⟨c, rfl⟩, hc⟩)
    · exact .word hne hw
    · exact .decimal hds hes hd he
    · exact .increment
    · exact .decrement
    · exact .char (hc c (List.mem_singleton_self c))
  · intro h
    cases h with
    | word hne hw => exact .inl (.inl (.inl (.inl ⟨hne, hw⟩)))
    | decimal hds hes hd he => exact .inl (.inl (.inl (.inr ⟨_, _, hds, hes, hd, he, rfl⟩)))
    | increment => exact .inl (.inl (.inr rfl))
    | decrement => exact .inl (.inr rfl)
    | char hc => exact .inr ⟨⟨_, rfl⟩, List.forall_mem_singleton.mpr hc⟩

instance : DecidablePred Lexeme := fun _ => decidable_of_iff _ isLexeme_iff

namespace Lexeme

theorem ne_nil {l : List Char} (h : Lexeme l) : l ≠ [] := by
  cases h with
  | word hne _ => exact hne
  | decimal _ _ _ _ => simp
  | _ => exact List.cons_ne_nil _ _

/-- No blank is in a lexeme. -/
theorem isBlank_eq_false {l : List Char} (h : Lexeme l) : ∀ c ∈ l, isBlank c = false := by
  cases h with
  | word _ hw => exact fun c hc => isBlank_of_isWordLike (hw c hc)
  | decimal _ _ hd he =>
    intro c hc
    rcases List.mem_append.mp hc with hc | hc
    · exact isBlank_of_isWordLike (isWordLike_of_isDecimal (hd c hc))
    · rcases List.mem_cons.mp hc with rfl | hc
      · decide
      · exact isBlank_of_isWordLike (isWordLike_of_isDecimal (he c hc))
  | increment => exact fun c hc => by simp_all; decide
  | decrement => exact fun c hc => by simp_all; decide
  | char hc => exact List.forall_mem_singleton.mpr hc

/-- A dot begins no longer lexeme. -/
theorem eq_dot {l : List Char} (h : Lexeme ('.' :: l)) : l = [] := by
  generalize hk : '.' :: l = k at h
  cases h with
  | word _ hw => exact absurd (hw '.' (hk ▸ List.mem_cons_self)) (by decide)
  | @decimal ds es hds _ hd _ =>
    obtain ⟨d, ds, rfl⟩ := List.exists_cons_of_ne_nil hds
    obtain rfl := (List.cons.inj hk).1
    exact absurd (hd '.' List.mem_cons_self) (by decide)
  | increment => cases hk
  | decrement => cases hk
  | char _ => exact (List.cons.inj hk).2

/-- A dot ends no longer lexeme. -/
theorem not_append_dot {ds : List Char} (hds : ds ≠ []) : ¬ Lexeme (ds ++ ['.']) := by
  intro h
  generalize hk : ds ++ ['.'] = k at h
  cases h with
  | word _ hw => exact absurd (hw '.' (hk ▸ by simp)) (by decide)
  | @decimal as es _ hes _ he =>
    obtain ⟨es, e, rfl⟩ := (List.eq_nil_or_concat' es).resolve_left hes
    have hlast := congrArg List.getLast? hk
    have hdot : '.' = e := by simpa [List.getLast?_cons, List.getLast?_append] using hlast
    exact absurd (he '.' (List.mem_append_right es (hdot ▸ List.mem_singleton_self '.'))) (by decide)
  | increment => simpa using congrArg List.getLast? hk
  | decrement => simpa using congrArg List.getLast? hk
  | char _ => exact hds (List.append_eq_singleton_iff.mp hk |>.elim And.left fun h => by cases h.2)

end Lexeme

/-! ### Maximal munch -/

/-- No lexeme that `l ++ rest` begins with is longer than `l`. -/
def Longest (l rest : List Char) : Prop := ∀ k, Lexeme k → k <+: l ++ rest → k.length ≤ l.length

/-- `Munches cs ls`: the text `cs` consists of the lexemes `ls` and blanks, each lexeme as long as it can be. -/
inductive Munches : List Char → List (List Char) → Prop where
  | nil : Munches [] []
  | blank {c : Char} {cs : List Char} {ls : List (List Char)} : isBlank c = true → Munches cs ls →
      Munches (c :: cs) ls
  | lexeme {l rest : List Char} {ls : List (List Char)} : Lexeme l → Longest l rest → Munches rest ls →
      Munches (l ++ rest) (l :: ls)

/-- The length of the longest lexeme that `cs` begins with. -/
def munch (cs : List Char) : ℕ := Nat.findGreatest (fun n => Lexeme (cs.take n)) cs.length

/-- The lexemes of a text. -/
def lexemes : List Char → List (List Char)
  | [] => []
  | c :: cs =>
    if isBlank c then lexemes cs
    else (c :: cs).take (munch (c :: cs)) :: lexemes (cs.drop (munch (c :: cs) - 1))
termination_by cs => cs.length
decreasing_by
  · exact Nat.lt_succ_self _
  · exact Nat.lt_succ_of_le (by rw [List.length_drop]; omega)

/-- The longest lexeme is found where the text does not begin with a blank. -/
theorem munch_spec {c : Char} (hc : isBlank c = false) (cs : List Char) :
    0 < munch (c :: cs) ∧ Lexeme ((c :: cs).take (munch (c :: cs))) ∧
      Longest ((c :: cs).take (munch (c :: cs))) ((c :: cs).drop (munch (c :: cs))) := by
  have hone : Lexeme ((c :: cs).take 1) := .char hc
  have hle : 1 ≤ (c :: cs).length := Nat.le_add_left 1 _
  have hfound : Lexeme ((c :: cs).take (munch (c :: cs))) :=
    @Nat.findGreatest_spec _ (fun n => Lexeme ((c :: cs).take n)) _ _ hle hone
  refine ⟨Nat.le_findGreatest hle hone, hfound, fun k hk hfront => ?_⟩
  rw [List.take_append_drop] at hfront
  have hmunch : k.length ≤ munch (c :: cs) :=
    Nat.le_findGreatest hfront.length_le (by rwa [← List.prefix_iff_eq_take.mp hfront])
  rw [List.length_take]
  exact Nat.le_min.mpr ⟨hmunch, hfront.length_le⟩

theorem munches_lexemes (cs : List Char) : Munches cs (lexemes cs) := by
  fun_induction lexemes cs with
  | case1 => exact .nil
  | case2 c cs hc ih => exact .blank hc ih
  | case3 c cs hc ih =>
    obtain ⟨hpos, hlexeme, hlongest⟩ := munch_spec (Bool.eq_false_iff.mpr hc) cs
    have hdrop : (c :: cs).drop (munch (c :: cs)) = cs.drop (munch (c :: cs) - 1) := by
      obtain ⟨n, hn⟩ := Nat.exists_eq_add_of_lt hpos
      rw [hn, Nat.zero_add, List.drop_succ_cons, Nat.add_sub_cancel]
    rw [← hdrop] at ih ⊢
    have hmunches := Munches.lexeme hlexeme hlongest ih
    rwa [List.take_append_drop] at hmunches

theorem munches_nil_iff {ls : List (List Char)} : Munches [] ls ↔ ls = [] := by
  refine ⟨fun h => ?_, fun h => h ▸ .nil⟩
  generalize hk : [] = ks at h
  cases h with
  | nil => rfl
  | blank _ _ => cases hk
  | lexeme hl _ _ => exact absurd (List.append_eq_nil_iff.mp hk.symm).1 hl.ne_nil

theorem munches_blank_iff {c : Char} (hc : isBlank c = true) {cs : List Char} {ls : List (List Char)} :
    Munches (c :: cs) ls ↔ Munches cs ls := by
  refine ⟨fun h => ?_, .blank hc⟩
  generalize hk : c :: cs = ks at h
  cases h with
  | nil => cases hk
  | blank _ h => exact (List.cons.inj hk).2 ▸ h
  | @lexeme l rest _ hl _ _ =>
    obtain ⟨d, l, rfl⟩ := List.exists_cons_of_ne_nil hl.ne_nil
    obtain rfl := (List.cons.inj hk).1
    rw [hl.isBlank_eq_false c List.mem_cons_self] at hc
    cases hc

/-- A text that does not begin with a blank begins with a longest lexeme. -/
theorem Munches.exists_lexeme {c : Char} (hc : isBlank c = false) {cs : List Char} {ls : List (List Char)}
    (h : Munches (c :: cs) ls) :
    ∃ l rest ks, c :: cs = l ++ rest ∧ ls = l :: ks ∧ Lexeme l ∧ Longest l rest ∧ Munches rest ks := by
  generalize hk : c :: cs = ks at h
  cases h with
  | nil => cases hk
  | blank hb _ =>
    obtain rfl := (List.cons.inj hk).1
    rw [hc] at hb
    cases hb
  | lexeme hl hlongest h => exact ⟨_, _, _, rfl, rfl, hl, hlongest, h⟩

/-- Two longest lexemes of one text are the same. -/
theorem Longest.eq {l l' rest rest' : List Char} (hl : Lexeme l) (hl' : Lexeme l') (h : Longest l rest)
    (h' : Longest l' rest') (he : l ++ rest = l' ++ rest') : l = l' ∧ rest = rest' := by
  have hle : l'.length ≤ l.length := h l' hl' (he ▸ List.prefix_append l' rest')
  have hge : l.length ≤ l'.length := h' l hl (he ▸ List.prefix_append l rest)
  exact List.append_inj he (Nat.le_antisymm hge hle)

/-- A longest lexeme is taken off the front. -/
theorem munches_append_iff {l rest : List Char} {ls : List (List Char)} (hl : Lexeme l) :
    Munches (l ++ rest) (l :: ls) ↔ Longest l rest ∧ Munches rest ls := by
  refine ⟨fun h => ?_, fun h => .lexeme hl h.1 h.2⟩
  obtain ⟨c, l, rfl⟩ := List.exists_cons_of_ne_nil hl.ne_nil
  obtain ⟨l', rest', ks, he, hls, hl', hlongest, h⟩ := h.exists_lexeme (hl.isBlank_eq_false c List.mem_cons_self)
  obtain ⟨rfl, rfl⟩ := List.cons.inj hls
  rw [List.append_cancel_left (List.cons_append.trans he)]
  exact ⟨hlongest, h⟩

/-- **Every text has one splitting into lexemes.** -/
theorem munches_iff {cs : List Char} {ls : List (List Char)} : Munches cs ls ↔ ls = lexemes cs := by
  refine ⟨fun h => ?_, fun h => h ▸ munches_lexemes cs⟩
  have hfound := munches_lexemes cs
  generalize lexemes cs = ks at hfound
  induction h generalizing ks with
  | nil => exact (munches_nil_iff.mp hfound).symm
  | blank hc _ ih => exact ih ks ((munches_blank_iff hc).mp hfound)
  | @lexeme l rest ls hl hlongest _ ih =>
    obtain ⟨c, l, rfl⟩ := List.exists_cons_of_ne_nil hl.ne_nil
    obtain ⟨l', rest', ks, he, rfl, hl', hlongest', hrest⟩ :=
      hfound.exists_lexeme (hl.isBlank_eq_false c List.mem_cons_self)
    obtain ⟨rfl, rfl⟩ := hlongest.eq hl hl' hlongest' he
    rw [ih ks hrest]

example : lexemes "a1 +++ 1.5.x".toList = ["a1", "++", "+", "1.5", ".", "x"].map String.toList := by
  decide +kernel

end ModuleBundler.Minify
