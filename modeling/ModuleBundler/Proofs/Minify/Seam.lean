import ModuleBundler.Proofs.Minify.Restore

/-!
# Minifying texts that stand one below the other

A source that leaves no literal and no block comment open is read on its own: whatever stands on the lines
below it does not change its pieces (`pieces_append_line`). A bracket or a semicolon never needs a space beside
it. So texts one below the other are minified one by one, if such a character stands at every seam between
them (`minify_lines`).
-/

namespace ModuleBundler.Minify

open Text

/-! ### Sealed sources -/

/-- Whether a text after an opening quote has a closing one that no backslash takes along. -/
def hasClosingQuote (quote : Char) : List Char → Bool
  | [] => false
  | '\\' :: _ :: cs => hasClosingQuote quote cs
  | c :: cs => c == quote || hasClosingQuote quote cs

/-- Whether a piece is sealed: a literal has its closing quote, and a block comment its closing
mark. -/
def Piece.isSealed : Piece → Bool
  | .literal (q :: cs) => hasClosingQuote q cs
  | .comment ('/' :: '*' :: cs) => ['*', '/'].isSuffixOf cs
  | _ => true

/-- A source that leaves no literal and no block comment open at its end. -/
def Sealed (cs : List Char) : Prop := ∀ p ∈ pieces cs, p.isSealed = true

instance (cs : List Char) : Decidable (Sealed cs) := List.decidableBAll _ (pieces cs)

theorem hasClosingQuote_plain {q c : Char} (hb : c ≠ '\\') (cs : List Char) :
    hasClosingQuote q (c :: cs) = (c == q || hasClosingQuote q cs) := by
  rw [hasClosingQuote]
  exact fun _ _ h => absurd h hb

theorem hasClosingQuote_inside {q : Char} {body : List Char} (h : Inside q body) (rest : List Char) :
    hasClosingQuote q (body ++ rest) = hasClosingQuote q rest := by
  induction h with
  | nil => rfl
  | plain hc hb _ ih =>
    rw [List.cons_append, hasClosingQuote_plain hb, ih, beq_eq_false_iff_ne.mpr hc, Bool.false_or]
  | escaped _ ih => rw [List.cons_append, List.cons_append, hasClosingQuote, ih]

/-- A literal that is the rest of its source is not sealed. -/
theorem isSealed_openLiteral {q : Char} {body tail : List Char} (hq : isQuote q = true) (h : Inside q body)
    (ht : tail = [] ∨ tail = ['\\']) : (Piece.literal (q :: (body ++ tail))).isSealed = false := by
  rw [Piece.isSealed, hasClosingQuote_inside h]
  rcases ht with rfl | rfl
  · rfl
  · rw [hasClosingQuote, hasClosingQuote, Bool.or_false]
    · exact beq_eq_false_iff_ne.mpr (ne_backslash_of_isQuote hq).symm
    · simp

/-- A comment that is the rest of its source is not sealed. -/
theorem isSealed_openComment {body : List Char} (h : ¬ ['*', '/'] <:+: body) :
    (Piece.comment ('/' :: '*' :: body)).isSealed = false := by
  refine Bool.eq_false_iff.mpr fun ht => h ?_
  exact (List.isSuffixOf_iff_suffix.mp ht).isInfix

theorem sealed_cons_iff {cs rest : List Char} {p : Piece} (h : pieces cs = p :: pieces rest) :
    Sealed cs ↔ p.isSealed = true ∧ Sealed rest := by
  unfold Sealed
  rw [h, List.forall_mem_cons]

/-- **A sealed source is read on its own.** Its pieces are the same with other lines below it. -/
theorem pieces_append_line {a : List Char} (h : Sealed a) (b : List Char) :
    pieces (a ++ '\n' :: b) = pieces a ++ .code '\n' :: pieces b := by
  have hline : pieces ('\n' :: b) = .code '\n' :: pieces b :=
    pieces_code (by decide) fun e => absurd e (by decide)
  obtain ⟨ts, hr⟩ := exists_reads a
  induction hr with
  | nil => rw [List.nil_append, hline, pieces]; rfl
  | @literal q body rest _ hq hb _ ih =>
    have hp := pieces_literal hq hb rest
    have hlonger : q :: (body ++ q :: rest) ++ '\n' :: b = q :: (body ++ q :: (rest ++ '\n' :: b)) := by simp
    rw [hlonger, pieces_literal hq hb, hp, ih ((sealed_cons_iff hp).mp h).2, List.cons_append]
  | openLiteral hq hb ht =>
    have hopen := h _ (by rw [pieces_openLiteral hq hb ht]; exact List.mem_singleton_self _)
    rw [isSealed_openLiteral hq hb ht] at hopen
    cases hopen
  | @lineComment body rest _ hb hn _ ih =>
    have hp := pieces_lineComment hb hn
    have hn' : rest ++ '\n' :: b = [] ∨ (rest ++ '\n' :: b).head? = some '\n' := by
      rcases hn with rfl | hn
      · exact .inr rfl
      · exact .inr (by rw [List.head?_append, hn]; rfl)
    rw [List.cons_append, List.cons_append, List.append_assoc, pieces_lineComment hb hn', hp,
      ih ((sealed_cons_iff hp).mp h).2, List.cons_append]
  | @blockComment body rest _ hb _ ih =>
    have hp := pieces_blockComment hb rest
    have hlonger : '/' :: '*' :: (body ++ '*' :: '/' :: rest) ++ '\n' :: b =
        '/' :: '*' :: (body ++ '*' :: '/' :: (rest ++ '\n' :: b)) := by simp
    rw [hlonger, pieces_blockComment hb, hp, ih ((sealed_cons_iff hp).mp h).2, List.cons_append]
  | openComment hb =>
    have hopen := h _ (by rw [pieces_openComment hb]; exact List.mem_singleton_self _)
    rw [isSealed_openComment hb] at hopen
    cases hopen
  | @blank c rest _ hc _ ih =>
    have hp : pieces (c :: rest) = .code c :: pieces rest :=
      pieces_code (isQuote_of_isBlank hc) fun e => absurd e (ne_slash_of_isBlank hc)
    rw [List.cons_append, pieces_code (isQuote_of_isBlank hc) fun e => absurd e (ne_slash_of_isBlank hc), hp,
      ih ((sealed_cons_iff hp).mp h).2, List.cons_append]
  | @char c rest _ _ hq hs _ ih =>
    have hp := pieces_code hq hs
    -- the line feed keeps a slash at the end from opening a comment
    have hs' : c = '/' → (rest ++ '\n' :: b).head? ≠ some '/' ∧ (rest ++ '\n' :: b).head? ≠ some '*' := by
      intro e
      cases rest with
      | nil => exact ⟨by simp, by simp⟩
      | cons d rest => exact hs e
    rw [List.cons_append, pieces_code hq hs', hp, ih ((sealed_cons_iff hp).mp h).2, List.cons_append]

theorem tokens_append_line {a : List Char} (h : Sealed a) (b : List Char) :
    tokens (a ++ '\n' :: b) = tokens a ++ .gap :: tokens b := by
  have hfeed : tokenOf (.code '\n') = .gap := by decide
  rw [tokens, pieces_append_line h, List.map_append, List.map_cons, hfeed]

/-- Sealed sources one below the other are a sealed source. -/
theorem Sealed.append_line {a b : List Char} (ha : Sealed a) (hb : Sealed b) : Sealed (a ++ '\n' :: b) := by
  unfold Sealed
  rw [pieces_append_line ha, List.forall_mem_append, List.forall_mem_cons]
  exact ⟨ha, by decide, hb⟩

/-! ### Tidy sources -/

/-- Whether a piece is as it should be: it is sealed, and a character of code is not the opening mark. -/
def Piece.isTidy : Piece → Bool
  | .code c => c != openMark
  | p => p.isSealed

/-- A source that leaves no literal and no block comment open at its end, and in whose code there is no opening
mark. -/
def Tidy (cs : List Char) : Prop := ∀ p ∈ pieces cs, p.isTidy = true

instance (cs : List Char) : Decidable (Tidy cs) := List.decidableBAll _ (pieces cs)

theorem isTidy_literal {q : Char} {body : List Char} (hq : isQuote q = true) (h : Inside q body) :
    (Piece.literal (q :: (body ++ [q]))).isTidy = true := by
  show (Piece.literal (q :: (body ++ [q]))).isSealed = true
  rw [Piece.isSealed, hasClosingQuote_inside h, hasClosingQuote_plain (ne_backslash_of_isQuote hq),
    beq_self_eq_true, Bool.true_or]

theorem Piece.isSealed_of_isTidy {p : Piece} (h : p.isTidy = true) : p.isSealed = true := by
  cases p with
  | code c => rfl
  | literal t => exact h
  | comment t => exact h

theorem Tidy.isSealed {cs : List Char} (h : Tidy cs) : Sealed cs := fun p hp => Piece.isSealed_of_isTidy (h p hp)

/-- Tidy sources one below the other are a tidy source. -/
theorem Tidy.append_line {a b : List Char} (ha : Tidy a) (hb : Tidy b) : Tidy (a ++ '\n' :: b) := by
  unfold Tidy
  rw [pieces_append_line ha.isSealed, List.forall_mem_append, List.forall_mem_cons]
  exact ⟨ha, by decide, hb⟩

/-- In the code of a tidy source there is no opening mark. -/
theorem Tidy.openMark_notMem {cs : List Char} (h : Tidy cs) : .item (.char openMark) ∉ tokens cs := by
  intro hmem
  obtain ⟨p, hp, he⟩ := List.mem_map.mp hmem
  have ht := h p hp
  cases p with
  | code c =>
    rw [tokenOf] at he
    split at he
    · cases he
    · cases he
      exact absurd ht (by decide)
  | _ => cases he

/-- The items of a tidy source are what it is minified to. -/
theorem Tidy.minifyChars_eq {cs : List Char} (h : Tidy cs) :
    minifyChars cs = spell none false ((pieces cs).map tokenOf) :=
  minifyChars_of_reads (reads_iff.mpr rfl) h.openMark_notMem

/-! ### Spelling token after token -/

/-- The edge of the last item of `ts`, and whether a gap follows it, where `left` and `gap` tell the same of
what stands before `ts`. -/
def endOf : Option Char → Bool → List Token → Option Char × Bool
  | left, gap, [] => (left, gap)
  | left, _, .gap :: ts => endOf left true ts
  | _, _, .item i :: ts => endOf (some i.edge) false ts

theorem spell_append (ts us : List Token) : ∀ (left : Option Char) (gap : Bool),
    spell left gap (ts ++ us) =
      spell left gap ts ++ spell (endOf left gap ts).1 (endOf left gap ts).2 us := by
  induction ts with
  | nil => intro left gap; rw [List.nil_append, spell, endOf, List.nil_append]
  | cons t ts ih =>
    intro left gap
    cases t with
    | gap => rw [List.cons_append, spell, spell, endOf]; exact ih left true
    | item i =>
      rw [List.cons_append, spell, spell, endOf, ih]
      split_ifs <;> simp

theorem endOf_append_item (ts : List Token) (i : Item) : ∀ (left : Option Char) (gap : Bool),
    endOf left gap (ts ++ [.item i]) = (some i.edge, false) := by
  induction ts with
  | nil => intro left gap; rfl
  | cons t ts ih => cases t <;> exact fun left gap => ih _ _

/-- Characters of code without gaps are spelled as they are, and so is the item after them. -/
theorem spell_chars_item (cs : List Char) (i : Item) (ts : List Token) : ∀ left : Option Char,
    spell left false (cs.map (fun c => .item (.char c)) ++ .item i :: ts) =
      cs ++ (i.text ++ spell (some i.edge) false ts) := by
  induction cs with
  | nil =>
    intro left
    rw [List.map_nil, List.nil_append, spell, Bool.false_and, if_neg Bool.false_ne_true]
    rfl
  | cons c cs ih =>
    intro left
    rw [List.map_cons, List.cons_append, spell, Bool.false_and, if_neg Bool.false_ne_true, ih]
    rfl

/-! ### Seams -/

/-- A character of code that never needs a space beside it, such as a bracket or a semicolon. -/
def standsApart (c : Char) : Bool :=
  !isBlank c && !isWordLike c && !(['+', '-', '/', '*'].contains c)

theorem needsSpace_of_standsApart {c : Char} (h : standsApart c = true) (d : Char) :
    needsSpace c d = false ∧ needsSpace d c = false := by
  unfold standsApart at h
  simp only [Bool.and_eq_true, Bool.not_eq_true', List.contains_eq_mem, decide_eq_false_iff_not, List.mem_cons,
    List.not_mem_nil, or_false, not_or] at h
  obtain ⟨⟨-, hw⟩, hplus, hminus, hslash, hstar⟩ := h
  simp [needsSpace, hw, hplus, hminus, hslash, hstar]

theorem tokenOf_of_standsApart {c : Char} (h : standsApart c = true) :
    tokenOf (.code c) = .item (.char c) := by
  unfold standsApart at h
  simp only [Bool.and_eq_true, Bool.not_eq_true'] at h
  rw [tokenOf, h.1.1, if_neg Bool.false_ne_true]

/-- Where nothing on the left needs a space, tokens are spelled as at the beginning of a text. -/
theorem spell_of_left {left : Option Char} (h : ∀ d, left.any (needsSpace · d) = false) (ts : List Token) :
    ∀ gap gap', spell left gap ts = spell none gap' ts := by
  induction ts with
  | nil => intro gap gap'; rw [spell, spell]
  | cons t ts ih =>
    intro gap gap'
    cases t with
    | gap => rw [spell, spell]; exact ih true true
    | item i =>
      rw [spell, spell, h, Option.any_none, Bool.and_false, Bool.and_false]

/-- A source that ends with a character that never needs a space beside it. -/
def EndsApart (cs : List Char) : Prop := ∃ c, (pieces cs).getLast? = some (.code c) ∧ standsApart c = true

/-- A source that begins with a character that never needs a space beside it. -/
def BeginsApart (cs : List Char) : Prop := ∃ c, (pieces cs).head? = some (.code c) ∧ standsApart c = true

theorem EndsApart.append_line {a b : List Char} (ha : Tidy a) (hb : EndsApart b) :
    EndsApart (a ++ '\n' :: b) := by
  obtain ⟨c, hlast, hc⟩ := hb
  refine ⟨c, ?_, hc⟩
  rw [pieces_append_line ha.isSealed, List.getLast?_append, List.getLast?_cons, hlast]
  rfl

/-- **Tidy sources one below the other** are minified one by one, if no space is needed between them. -/
theorem minifyChars_append_line {a b : List Char} (ha : Tidy a) (hb : Tidy b)
    (hs : EndsApart a ∨ BeginsApart b) :
    minifyChars (a ++ '\n' :: b) = minifyChars a ++ minifyChars b := by
  have hgap : tokenOf (.code '\n') = .gap := by decide
  rw [(ha.append_line hb).minifyChars_eq, ha.minifyChars_eq, hb.minifyChars_eq,
    pieces_append_line ha.isSealed, List.map_append, List.map_cons, hgap, spell_append, spell]
  congr 1
  -- what is left to show is that the second source is spelled as if nothing stood before it
  rcases hs with ⟨c, hlast, hc⟩ | ⟨c, hfirst, hc⟩
  · obtain ⟨ps, hps⟩ := List.getLast?_eq_some_iff.mp hlast
    have hleft : ∀ d, (some c).any (needsSpace · d) = false := fun d => (needsSpace_of_standsApart hc d).1
    rw [hps, List.map_append, List.map_singleton, tokenOf_of_standsApart hc, endOf_append_item]
    exact spell_of_left hleft _ _ _
  · obtain ⟨ps, hps⟩ := List.head?_eq_some_iff.mp hfirst
    generalize (endOf none false ((pieces a).map tokenOf)).1 = left
    have hleft : left.any (needsSpace · (Item.char c).edge) = false := by
      cases left with
      | none => rfl
      | some d => exact (needsSpace_of_standsApart hc d).2
    rw [hps, List.map_cons, tokenOf_of_standsApart hc, spell, spell, hleft, Bool.and_false, Bool.false_and]

/-! ### Texts before other texts -/

/-- A character that opens no literal and no comment, and is not the opening mark. -/
def isOrdinary (c : Char) : Bool := !isQuote c && c != '/' && c != openMark

/-- Ordinary characters are pieces of their own. -/
theorem pieces_ordinary {cs : List Char} (h : cs.all isOrdinary = true) (rest : List Char) :
    pieces (cs ++ rest) = cs.map .code ++ pieces rest := by
  induction cs with
  | nil => rfl
  | cons c cs ih =>
    rw [List.all_cons, Bool.and_eq_true] at h
    obtain ⟨hc, hrest⟩ := h
    simp only [isOrdinary, Bool.and_eq_true, Bool.not_eq_true', bne_iff_ne] at hc
    rw [List.cons_append, pieces_code hc.1.1 fun e => absurd e hc.1.2, ih hrest]
    rfl

section

variable {cs : List Char} (h : cs.all isOrdinary = true)

include h

theorem pieces_of_ordinary : pieces cs = cs.map .code := by
  have hpieces := pieces_ordinary h []
  rwa [List.append_nil, pieces, List.append_nil] at hpieces

theorem tidy_of_ordinary : Tidy cs := by
  intro p hp
  rw [pieces_of_ordinary h] at hp
  obtain ⟨c, hc, rfl⟩ := List.mem_map.mp hp
  have hc := List.all_eq_true.mp h c hc
  rw [isOrdinary, Bool.and_eq_true] at hc
  exact hc.2

theorem endsApart_of_ordinary {c : Char} (hlast : cs.getLast? = some c) (hc : standsApart c = true) :
    EndsApart cs := by
  refine ⟨c, ?_, hc⟩
  rw [pieces_of_ordinary h, List.getLast?_map, hlast, Option.map_some]

theorem beginsApart_of_ordinary {c : Char} (hfirst : cs.head? = some c) (hc : standsApart c = true) :
    BeginsApart cs := by
  refine ⟨c, ?_, hc⟩
  rw [pieces_of_ordinary h, List.head?_map, hfirst, Option.map_some]

/-- Ordinary characters lose their gaps only. -/
theorem minifyChars_of_ordinary : minifyChars cs = spell none false (cs.map fun c => tokenOf (.code c)) := by
  rw [(tidy_of_ordinary h).minifyChars_eq, pieces_of_ordinary h, List.map_map]
  rfl

end

/-- A text that is read on its own in front of every other text, and holds nothing untidy. -/
def Separate (cs : List Char) : Prop :=
  ∃ ps : List Piece, (∀ p ∈ ps, p.isTidy = true) ∧ ∀ rest, pieces (cs ++ rest) = ps ++ pieces rest

namespace Separate

variable {as bs : List Char}

theorem append (ha : Separate as) (hb : Separate bs) : Separate (as ++ bs) := by
  obtain ⟨ps, hps, ha⟩ := ha
  obtain ⟨qs, hqs, hb⟩ := hb
  refine ⟨ps ++ qs, List.forall_mem_append.mpr ⟨hps, hqs⟩, fun rest => ?_⟩
  rw [List.append_assoc, ha, hb, List.append_assoc]

theorem chars (h : as.all isOrdinary = true) : Separate as := by
  refine ⟨as.map .code, fun p hp => ?_, pieces_ordinary h⟩
  rw [← pieces_of_ordinary h] at hp
  exact tidy_of_ordinary h p hp

theorem tidy_append (ha : Separate as) (hb : Tidy bs) : Tidy (as ++ bs) := by
  obtain ⟨ps, hps, ha⟩ := ha
  unfold Tidy
  rw [ha, List.forall_mem_append]
  exact ⟨hps, hb⟩

theorem endsApart_append (ha : Separate as) (hb : EndsApart bs) : EndsApart (as ++ bs) := by
  obtain ⟨ps, -, ha⟩ := ha
  obtain ⟨c, hlast, hc⟩ := hb
  refine ⟨c, ?_, hc⟩
  rw [ha, List.getLast?_append, hlast]
  rfl

end Separate

/-! ### Lines -/

/-- Tidy lines are a tidy source. -/
theorem tidy_lines {lines : List (List Char)} (h : ∀ l ∈ lines, Tidy l) : Tidy (['\n'].intercalate lines) := by
  induction lines with
  | nil => exact tidy_of_ordinary rfl
  | cons l lines ih =>
    obtain ⟨hl, hrest⟩ := List.forall_mem_cons.mp h
    cases lines with
    | nil => simpa using hl
    | cons l' lines =>
      rw [List.intercalate_cons_cons, List.append_assoc]
      exact hl.append_line (ih hrest)

/-- Tidy lines end as the last one of them does. -/
theorem endsApart_lines {last : List Char} (h : EndsApart last) {lines : List (List Char)}
    (ht : ∀ l ∈ lines, Tidy l) : EndsApart (['\n'].intercalate (lines ++ [last])) := by
  induction lines with
  | nil => simpa using h
  | cons l lines ih =>
    obtain ⟨hl, hrest⟩ := List.forall_mem_cons.mp ht
    obtain ⟨l', lines', he⟩ := List.exists_cons_of_ne_nil (List.concat_ne_nil last lines)
    rw [List.cons_append, he, List.intercalate_cons_cons, List.append_assoc, ← he]
    exact (ih hrest).append_line hl

/-- **Tidy texts that end apart** are minified one by one, and so is a last one below them. -/
theorem minifyChars_lines {last : List Char} (hlast : Tidy last) {lines : List (List Char)}
    (h : ∀ l ∈ lines, Tidy l ∧ EndsApart l) :
    minifyChars (['\n'].intercalate (lines ++ [last])) = lines.flatMap minifyChars ++ minifyChars last := by
  induction lines with
  | nil => simp
  | cons l lines ih =>
    obtain ⟨⟨hl, hends⟩, hrest⟩ := List.forall_mem_cons.mp h
    have ht : Tidy (['\n'].intercalate (lines ++ [last])) := by
      refine tidy_lines (List.forall_mem_append.mpr ⟨fun l hl => (hrest l hl).1, ?_⟩)
      exact List.forall_mem_singleton.mpr hlast
    obtain ⟨l', lines', he⟩ := List.exists_cons_of_ne_nil (List.concat_ne_nil last lines)
    rw [List.cons_append, he, List.intercalate_cons_cons, List.append_assoc, ← he, List.flatMap_cons,
      List.append_assoc, ← ih hrest]
    exact minifyChars_append_line hl ht (.inl hends)

end ModuleBundler.Minify

namespace ModuleBundler

open Minify

/-- Texts that end apart are minified one by one, and so is a last one below them. -/
theorem minify_lines {last : String} (hlast : Tidy last.toList) {lines : List String}
    (h : ∀ l ∈ lines, Tidy l.toList ∧ EndsApart l.toList) :
    minify ("\n".intercalate (lines ++ [last])) = String.join (lines.map minify) ++ minify last := by
  have hchars := minifyChars_lines hlast (List.forall_mem_map.mpr h)
  have hnewline : "\n".toList = ['\n'] := rfl
  refine String.toList_inj.mp ?_
  simp only [minify, String.toList_ofList, String.toList_append, String.toList_intercalate, String.toList_join,
    List.map_append, List.map_singleton, List.flatMap_map, hnewline, hchars]

end ModuleBundler
