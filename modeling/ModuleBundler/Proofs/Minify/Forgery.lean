import Mathlib.Data.String.Basic
import ModuleBundler.Proofs.Minify.Beside

/-!
# Numbers that no literal left behind

The marks that represent a literal while a source is minified may be characters of the source itself. Where an
opening mark of code, a number and a closing mark of code come together when the gaps are dropped, they are taken
for a literal, if there is one of that number: the literal is forged. This is the only way in which minifying loses
or invents code (`solid_minify_eq_iff`). Where no literal is forged, a minified source has the items of its source
and is not longer.
-/

namespace ModuleBundler.Minify

open Text

/-! ### Code without its gaps -/

/-- The text of a source without its comments and the blanks outside its literals. -/
def solid (cs : List Char) : List Char := (items cs).flatMap Item.text

/-! ### A literal in the place of a mark -/

/-- At the first forged literal a literal of the table stands in the place of an opening mark. -/
theorem Restored.exists_of_forgedIn {table : List (List Char)} {ts : List Token} {cs : List Char}
    (h : Restored table ts cs) (hf : ForgedIn table.length ts) :
    ∃ as bs t rest, ts = as ++ codeToken openMark :: bs ∧ t ∈ table ∧
      cs = as.flatMap Token.text ++ (t ++ rest) := by
  induction h with
  | nil => exact absurd hf (not_forgedIn_nil _)
  | @cons t ts cs hhere _ ih =>
    rcases forgedIn_cons_iff.mp hf with ⟨rfl, hforged⟩ | hf
    · exact absurd hforged (hhere rfl)
    · obtain ⟨as, bs, l, rest, rfl, hl, rfl⟩ := ih hf
      exact ⟨t :: as, bs, l, rest, rfl, hl, by rw [List.flatMap_cons, List.append_assoc]⟩
  | @forged ts t cs _ ht => exact ⟨[], ts, t, cs, rfl, ht, rfl⟩

/-- A literal of a source begins with its quote. -/
theorem exists_quote_of_mem_literals {cs t : List Char} (h : t ∈ literals (pieces cs)) :
    ∃ q body, isQuote q = true ∧ t = q :: body := by
  fun_induction pieces cs with
  | case1 => cases h
  | case2 c cs hq ih =>
    rcases List.mem_cons.mp h with rfl | h
    · exact ⟨c, _, hq, rfl⟩
    · exact ih h
  | case3 c cs _ _ ih => exact ih h
  | case4 c cs _ _ _ ih => exact ih h
  | case5 c cs _ _ _ ih => exact ih h

theorem ne_slash_star_of_isQuote {q : Char} (h : isQuote q = true) : q ≠ '/' ∧ q ≠ '*' := by
  constructor
  · rintro rfl
    exact absurd h (by decide)
  · rintro rfl
    exact absurd h (by decide)

/-- The text of pieces before a quote begins as the source does, unless the quote is the first character of it. -/
theorem head?_before_quote {rest : List Char} {c : Char} {ps qs : List Piece}
    (h : pieces rest = ps ++ .code c :: qs) (q : Char) (after : List Char) :
    (ps.flatMap Piece.text ++ q :: after).head? = rest.head? ∨
      (ps.flatMap Piece.text ++ q :: after).head? = some q ∧ rest.head? = some c := by
  have hrest : rest = ps.flatMap Piece.text ++ c :: qs.flatMap Piece.text := by
    rw [← flatMap_text_pieces rest, h, List.flatMap_append, List.flatMap_cons]
    rfl
  cases hps : ps.flatMap Piece.text with
  | nil =>
    rw [hps] at hrest
    exact .inr ⟨rfl, by rw [hrest]; rfl⟩
  | cons x xs =>
    rw [hps] at hrest
    exact .inl (by rw [hrest]; rfl)

/-- One piece before a quote is read on its own if it is before the text of the pieces after it. -/
theorem pieces_before_quote_cons {cs rest after : List Char} {c q : Char} {p : Piece} {ps qs : List Piece}
    (hcs : pieces cs = p :: pieces rest) (h : pieces cs = ps ++ .code c :: qs)
    (hp : ∀ ps, pieces rest = ps ++ .code c :: qs →
      pieces (p.text ++ (ps.flatMap Piece.text ++ q :: after)) =
        p :: pieces (ps.flatMap Piece.text ++ q :: after))
    (ih : ∀ {ps}, pieces rest = ps ++ .code c :: qs →
      pieces (ps.flatMap Piece.text ++ q :: after) = ps ++ pieces (q :: after)) :
    pieces (ps.flatMap Piece.text ++ q :: after) = ps ++ pieces (q :: after) := by
  cases ps with
  | nil => rfl
  | cons p' ps =>
    obtain ⟨rfl, hrest⟩ := List.cons.inj (hcs.symm.trans h)
    rw [List.flatMap_cons, List.append_assoc, hp ps hrest, ih hrest, List.cons_append]

/-- **What stands before a quote is read on its own**: pieces of a source that stand before a character of code are
the same before a quote. -/
theorem pieces_before_quote {cs : List Char} {c q : Char} (hc : c ≠ '\n') (hq : isQuote q = true)
    {ps qs : List Piece} (h : pieces cs = ps ++ .code c :: qs) (after : List Char) :
    pieces (ps.flatMap Piece.text ++ q :: after) = ps ++ pieces (q :: after) := by
  obtain ⟨ts, hr⟩ := exists_reads cs
  induction hr generalizing ps with
  | nil => rw [pieces] at h; cases ps <;> cases h
  | literal hq' hb _ ih =>
    refine pieces_before_quote_cons (pieces_literal hq' hb _) h (fun ps _ => ?_) ih
    simpa [Piece.text] using pieces_literal hq' hb (ps.flatMap Piece.text ++ q :: after)
  | openLiteral hq' hb ht =>
    rw [pieces_openLiteral hq' hb ht] at h
    cases ps with
    | nil => cases h
    | cons p ps => cases ps <;> cases h
  | lineComment hb hn _ ih =>
    refine pieces_before_quote_cons (pieces_lineComment hb hn) h (fun ps hps => ?_) ih
    -- the comment ends with its line, and the line feed is not the character in whose place the quote stands
    refine pieces_lineComment hb (.inr ?_)
    rcases hn with rfl | hn
    · rw [pieces] at hps
      cases ps <;> cases hps
    · rcases head?_before_quote hps q after with hhead | ⟨-, hfirst⟩
      · exact hhead.trans hn
      · exact absurd (Option.some.inj (hfirst.symm.trans hn)) hc
  | blockComment hb _ ih =>
    refine pieces_before_quote_cons (pieces_blockComment hb _) h (fun ps _ => ?_) ih
    simpa [Piece.text] using pieces_blockComment hb (ps.flatMap Piece.text ++ q :: after)
  | openComment hb =>
    rw [pieces_openComment hb] at h
    cases ps with
    | nil => cases h
    | cons p ps => cases ps <;> cases h
  | blank hd _ ih =>
    refine pieces_before_quote_cons (pieces_code (isQuote_of_isBlank hd) fun e => absurd e (ne_slash_of_isBlank hd)) h
      (fun ps _ => ?_) ih
    exact pieces_code (isQuote_of_isBlank hd) fun e => absurd e (ne_slash_of_isBlank hd)
  | char _ hq' hs _ ih =>
    refine pieces_before_quote_cons (pieces_code hq' hs) h (fun ps hps => ?_) ih
    rw [Piece.text, List.singleton_append]
    -- a slash before the quote had the same neighbour in the source, or it has the quote now
    refine pieces_code hq' fun e => ?_
    obtain ⟨hslash, hstar⟩ := ne_slash_star_of_isQuote hq
    rcases head?_before_quote hps q after with hhead | ⟨hhead, -⟩ <;> rw [hhead]
    · exact hs e
    · exact ⟨fun h => hslash (Option.some.inj h), fun h => hstar (Option.some.inj h)⟩

/-! ### What is lost and what is not -/

theorem solid_of_pieces {cs : List Char} {ps qs : List Piece} (h : pieces cs = ps ++ qs) :
    solid cs = ((ps.map tokenOf).filterMap Token.item?).flatMap Item.text ++
      ((qs.map tokenOf).filterMap Token.item?).flatMap Item.text := by
  rw [solid, items, tokens, h, List.map_append, List.filterMap_append, List.flatMap_append]

/-- A forged literal changes what a source is without its gaps: a quote stands in the place of an opening mark. -/
theorem solid_minifyChars_ne {cs : List Char} (h : Forged cs) : solid (minifyChars cs) ≠ solid cs := by
  obtain ⟨as, bs, t, rest, hts, ht, hmin⟩ := (restored_minifyChars cs).exists_of_forgedIn h
  obtain ⟨q, body, hq, rfl⟩ := exists_quote_of_mem_literals ht
  have hspelled : pieces (spell none false (tokens cs)) =
      as.map Token.piece ++ .code openMark :: bs.map Token.piece := by
    rw [pieces_spell (reads_iff.mpr rfl), ← settled, hts, List.map_append]
    rfl
  have hminified : pieces (minifyChars cs) = as.map Token.piece ++ pieces (q :: (body ++ rest)) := by
    rw [hmin, ← pieces_before_quote (by decide) hq hspelled, List.flatMap_map]
    rfl
  rw [pieces, if_pos hq] at hminified
  have hsource : solid cs = solid (spell none false (tokens cs)) := by
    rw [solid, solid, items_spell_tokens]
  rw [hsource, solid_of_pieces hspelled, solid_of_pieces hminified]
  intro he
  obtain rfl : q = openMark := (List.cons.inj (List.append_cancel_left he)).1
  exact absurd hq (by decide)

/-! ### Bytes -/

theorem utf8Len_lt_of_suffix {rest tail : List Char} (h : rest <:+ tail) (c : Char) :
    String.utf8Len rest < String.utf8Len (c :: tail) := by
  have hle := String.utf8Len_le_of_suffix h
  have hpos := c.utf8Size_pos
  rw [String.utf8Len_cons]
  omega

/-- An item is spelled as it is, after a space where there was a gap. -/
theorem utf8Len_spell_item_le {i : Item} {ts : List Token} {rest : List Char}
    (h : String.utf8Len (spell (some i.edge) false ts) ≤ String.utf8Len rest) (left : Option Char)
    (gap : Bool) :
    String.utf8Len (spell left gap (.item i :: ts)) ≤
      String.utf8Len (i.text ++ rest) + if gap then 1 else 0 := by
  have hspace : ' '.utf8Size = 1 := rfl
  rw [spell, String.utf8Len_append]
  cases gap with
  | false =>
    rw [Bool.false_and, if_neg Bool.false_ne_true, String.utf8Len_append]
    omega
  | true =>
    rw [if_pos rfl]
    split_ifs
    · rw [String.utf8Len_cons, String.utf8Len_append]
      omega
    · rw [String.utf8Len_append]
      omega

/-- A gap is spelled as one space at most, which is not longer than the blank or the comment that made it. -/
theorem utf8Len_spell_gap_le {ts : List Token} {rest tail : List Char} (hsuffix : rest <:+ tail) {left : Option Char}
    (h : String.utf8Len (spell left true ts) ≤ String.utf8Len rest + 1) (c : Char) (gap : Bool) :
    String.utf8Len (spell left gap (.gap :: ts)) ≤ String.utf8Len (c :: tail) + if gap then 1 else 0 := by
  have hlt := utf8Len_lt_of_suffix hsuffix c
  rw [spell]
  omega

/-- What is spelled is not longer than its source, but for the space of a gap before it. -/
theorem utf8Len_spell_le {cs : List Char} {ts : List Token} (h : Reads cs ts) :
    ∀ (left : Option Char) (gap : Bool),
      String.utf8Len (spell left gap ts) ≤ String.utf8Len cs + if gap then 1 else 0 := by
  induction h with
  | nil => intro left gap; rw [spell]; exact Nat.zero_le _
  | @literal q body rest ts _ _ _ ih =>
    have htext : q :: (body ++ q :: rest) = (Item.literal (q :: (body ++ [q]))).text ++ rest := by
      simp [Item.text]
    rw [htext]
    exact utf8Len_spell_item_le (ih (some '_') false)
  | @openLiteral q body tail _ _ _ =>
    intro left gap
    have hitem := @utf8Len_spell_item_le (.literal (q :: (body ++ tail))) [] [] le_rfl left gap
    rwa [List.append_nil] at hitem
  | @lineComment body rest _ _ _ _ ih =>
    have hsuffix : rest <:+ '/' :: (body ++ rest) := ⟨'/' :: body, rfl⟩
    exact fun left gap => utf8Len_spell_gap_le hsuffix (ih left true) '/' gap
  | @blockComment body rest _ _ _ ih =>
    have hsuffix : rest <:+ '*' :: (body ++ '*' :: '/' :: rest) := ⟨'*' :: (body ++ ['*', '/']), by simp⟩
    exact fun left gap => utf8Len_spell_gap_le hsuffix (ih left true) '/' gap
  | openComment _ => intro left gap; rw [spell, spell]; exact Nat.zero_le _
  | @blank c _ _ _ _ ih => exact fun left gap => utf8Len_spell_gap_le List.suffix_rfl (ih left true) c gap
  | @char c _ _ _ _ _ _ ih => exact utf8Len_spell_item_le (i := .char c) (ih (some c) false)

end ModuleBundler.Minify

namespace ModuleBundler

open Minify

/-- **Minifying neither loses nor invents code, unless a literal is forged.** Without its comments and the blanks in
its code, a minified source is what the source is without them, if and only if no literal is forged. Where none is,
the items of the source are kept, and the minified source is not longer in bytes. -/
theorem solid_minify_eq_iff (source : String) :
    (solid (minify source).toList = solid source.toList ↔ ¬ Forged source.toList) ∧
      (¬ Forged source.toList → items (minify source).toList = items source.toList ∧
        (minify source).utf8ByteSize ≤ source.utf8ByteSize) := by
  have hkept : ¬ Forged source.toList → items (minify source).toList = items source.toList := by
    intro h
    rw [minify, String.toList_ofList, minifyChars_of_not_forged h, items_spell_tokens]
  refine ⟨⟨fun he hf => ?_, fun h => ?_⟩, fun h => ⟨hkept h, ?_⟩⟩
  · rw [minify, String.toList_ofList] at he
    exact solid_minifyChars_ne hf he
  · rw [solid, solid, hkept h]
  · rw [minify, minifyChars_of_not_forged h, String.utf8ByteSize_ofList, ← String.utf8Len_toList source]
    exact utf8Len_spell_le (reads_iff.mpr rfl) none false

/-- A source with marks in its code, in a comment and in a literal, none of which forges a literal: a gap has to stay
before the number, there is no literal of the number, there is no number, or another mark stands in between. -/
def strayMarks : String :=
  "\ue000 0\ue001 + \ue0002\ue001 /* \ue0000\ue001 */ '\ue0001\ue001' - \ue000+\ue001 \ue000\"a  b\""

/-- A source that forges its literal over gaps and a comment. -/
def forgingSource : String := "\ue000 + /* 1 */ 0\ue001 'a longer text'"

theorem solid_minify_eq_iff_strayMarks :
    (¬ Forged strayMarks.toList ∧ items (minify strayMarks).toList = items strayMarks.toList ∧
        (minify strayMarks).utf8ByteSize ≤ strayMarks.utf8ByteSize) ∧
      Forged forgingSource.toList ∧ solid (minify forgingSource).toList ≠ solid forgingSource.toList := by
  obtain ⟨hiff, hkept⟩ := solid_minify_eq_iff strayMarks
  have hstray : ¬ Forged strayMarks.toList := hiff.mp (by decide +kernel)
  have hforged : Forged forgingSource.toList := by
    have hliteral : 0 < (literals (pieces forgingSource.toList)).length := by decide +kernel
    refine ⟨['+', '0'], 0, by decide, hliteral, [], [.gap, .item (.literal "'a longer text'".toList)], ?_⟩
    decide +kernel
  exact ⟨⟨hstray, hkept hstray⟩, hforged, fun he => (solid_minify_eq_iff forgingSource).1.mp he hforged⟩

/-- A forged literal is code that the source does not have, and may be longer than what it stands for. -/
theorem minify_forged_literal :
    minify "\ue0000\ue001'a longer text'" = "'a longer text''a longer text'" ∧
      solid "'a longer text''a longer text'".toList ≠ solid "\ue0000\ue001'a longer text'".toList ∧
      "\ue0000\ue001'a longer text'".utf8ByteSize < "'a longer text''a longer text'".utf8ByteSize := by
  decide +kernel

end ModuleBundler
