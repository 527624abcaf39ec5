import ModuleBundler.Proofs.Minify.Restore

/-!
# Minifying a second time

Dropping gaps brings characters together that stood apart. None of these neighbours opens a comment or a
literal, or closes one early: what is spelled falls into the items that it was spelled from, with a space
for each gap that was kept (`pieces_spell`). So nothing is left to do for a second pass (`minify_minify`).
-/

namespace ModuleBundler.Minify

open Text

/-! ### Neighbours -/

/-- An item of code is no blank. -/
theorem isBlank_of_reads {cs : List Char} {ts : List Token} (h : Reads cs ts) {c : Char}
    (hc : .item (.char c) ∈ ts) : isBlank c = false := by
  obtain rfl := reads_iff.mp h
  obtain ⟨p, -, hp⟩ := List.mem_map.mp hc
  cases p with
  | code d => cases hd : isBlank d <;> simp_all [tokenOf]
  | _ => cases hp

/-- After a slash a slash or a star is spelled only where it stands right there in the source, which makes
a comment of the two. -/
theorem head?_of_head?_spell {cs : List Char} {ts : List Token} (h : Reads cs ts) {c : Char}
    (hc : c = '/' ∨ c = '*') :
    ∀ {gap : Bool}, (spell (some '/') gap ts).head? = some c → gap = false ∧ cs.head? = some c := by
  have hnum : needsSpace '/' '_' = false := by decide
  have hneed : needsSpace '/' c = true := by rcases hc with rfl | rfl <;> decide
  have hquote : isQuote c = false := by rcases hc with rfl | rfl <;> rfl
  have hspace : c ≠ ' ' := by rcases hc with rfl | rfl <;> decide
  induction h with
  | nil => intro gap hs; cases hs
  | literal hq _ _ _ | openLiteral hq _ _ =>
    intro gap hs
    rw [spell, if_neg (by simp [Item.edge, hnum])] at hs
    obtain rfl := Option.some.inj hs
    rw [hquote] at hq
    cases hq
  | lineComment _ _ _ ih => intro gap hs; exact absurd (ih hs).1 (by simp)
  | blockComment _ _ ih => intro gap hs; exact absurd (ih hs).1 (by simp)
  | openComment _ => intro gap hs; cases hs
  | blank _ _ ih => intro gap hs; exact absurd (ih hs).1 (by simp)
  | @char d _ _ _ _ _ _ _ =>
    intro gap hs
    rw [spell] at hs
    split_ifs at hs with hgap
    · exact absurd (Option.some.inj hs).symm hspace
    · obtain rfl : d = c := Option.some.inj hs
      refine ⟨?_, rfl⟩
      simpa [Item.edge, hneed] using hgap

/-! ### The pieces of what is spelled -/

/-- What is spelled falls into the settled tokens if this holds from the first item on. -/
theorem pieces_spell_item {i : Item} {ts : List Token}
    (h : pieces (i.text ++ spell (some i.edge) false ts) =
      Token.piece (.item i) :: (settle (some i.edge) false ts).map Token.piece)
    (left : Option Char) (gap : Bool) :
    pieces (spell left gap (.item i :: ts)) = (settle left gap (.item i :: ts)).map Token.piece := by
  rw [spell, settle]
  split_ifs
  · rw [pieces_code (by decide) fun e => absurd e (by decide), h]
    rfl
  · exact h

/-- **What is spelled falls into its items**, with a space for each gap that was kept. -/
theorem pieces_spell {cs : List Char} {ts : List Token} (h : Reads cs ts) :
    ∀ (left : Option Char) (gap : Bool),
      pieces (spell left gap ts) = (settle left gap ts).map Token.piece := by
  induction h with
  | nil => intro left gap; rw [spell, settle, pieces]; rfl
  | @literal q body _ ts hq hb _ ih =>
    refine pieces_spell_item ?_
    have ht : q :: (body ++ [q]) ++ spell (some '_') false ts =
        q :: (body ++ q :: spell (some '_') false ts) := by simp
    show pieces (q :: (body ++ [q]) ++ spell (some '_') false ts) = _
    rw [ht, pieces_literal hq hb, ih]
    rfl
  | openLiteral hq hb ht =>
    refine pieces_spell_item ?_
    rw [spell, List.append_nil]
    exact pieces_openLiteral hq hb ht
  | lineComment _ _ _ ih => exact fun left gap => ih left true
  | blockComment _ _ ih => exact fun left gap => ih left true
  | openComment _ => intro left gap; rw [spell, spell, settle, settle, pieces]; rfl
  | blank _ _ ih => exact fun left gap => ih left true
  | @char c rest ts _ hq hs hr ih =>
    refine pieces_spell_item ?_
    -- a slash would open a comment only with a neighbour that it had in the source already
    have hs' : c = '/' → (spell (some c) false ts).head? ≠ some '/' ∧
        (spell (some c) false ts).head? ≠ some '*' := by
      rintro rfl
      exact ⟨fun h => (hs rfl).1 (head?_of_head?_spell hr (.inl rfl) h).2,
        fun h => (hs rfl).2 (head?_of_head?_spell hr (.inr rfl) h).2⟩
    show pieces (c :: spell (some c) false ts) = _
    rw [pieces_code hq hs', ih]
    rfl

/-- What is spelled reads as the settled tokens. -/
theorem reads_spell {cs : List Char} {ts : List Token} (h : Reads cs ts) (left : Option Char) (gap : Bool) :
    Reads (spell left gap ts) (settle left gap ts) := by
  have htoken : ∀ t ∈ settle left gap ts, tokenOf t.piece = t := by
    intro t ht
    cases t with
    | gap =>
      have hb : isBlank ' ' = true := by decide
      rw [Token.piece, tokenOf, if_pos hb]
    | item i =>
      cases i with
      | char c =>
        have hc := isBlank_of_reads h ((item_mem_settle_iff ts left gap).mp ht)
        rw [Token.piece, tokenOf, if_neg (by simp [hc])]
      | literal t => rfl
  rw [reads_iff, pieces_spell h, List.map_map]
  exact ((List.map_congr_left htoken).trans (List.map_id _)).symm

/-- No comment is left in what is spelled. -/
theorem comment_notMem_pieces_spell {cs : List Char} {ts : List Token} (h : Reads cs ts)
    (left : Option Char) (gap : Bool) (t : List Char) : .comment t ∉ pieces (spell left gap ts) := by
  rw [pieces_spell h, List.mem_map]
  rintro ⟨token, -, he⟩
  cases token with
  | gap => cases he
  | item i => cases i <;> cases he

/-- The literals in what is spelled are the literals it was spelled from. -/
theorem literals_pieces_spell {cs : List Char} {ts : List Token} (h : Reads cs ts) (left : Option Char)
    (gap : Bool) : literals (pieces (spell left gap ts)) = literals (pieces cs) := by
  rw [literals_eq, literals_eq, ← reads_iff.mp (reads_spell h left gap), ← reads_iff.mp h,
    literal?_settle]

end ModuleBundler.Minify

namespace ModuleBundler

open Minify

/-- **Minifying a second time changes nothing.** Where the opening mark is not among the characters of code
of a source, a second pass over the minified source finds the literals of the source in their order and no
comment, and gives the minified source back. -/
theorem minify_minify (source : String) {ts : List Token} (hr : Reads source.toList ts)
    (hu : .item (.char openMark) ∉ ts) :
    minify (minify source) = minify source ∧
      literals (pieces (minify source).toList) = literals (pieces source.toList) ∧
      ∀ t, .comment t ∉ pieces (minify source).toList := by
  have hm : (minify source).toList = spell none false ts := by
    rw [minify, String.toList_ofList, minifyChars_of_reads hr hu]
  have hu' : .item (.char openMark) ∉ settle none false ts := mt (item_mem_settle_iff ts none false).mp hu
  refine ⟨?_, ?_, ?_⟩
  · calc minify (minify source)
        = String.ofList (minifyChars (spell none false ts)) := by rw [minify, hm]
      _ = String.ofList (spell none false (settle none false ts)) := by
          rw [minifyChars_of_reads (reads_spell hr none false) hu']
      _ = minify source := by rw [spell_settle, ← hm, String.ofList_toList]
  · rw [hm]
    exact literals_pieces_spell hr none false
  · rw [hm]
    exact comment_notMem_pieces_spell hr none false

/-- A source in which slashes, stars and signs come together over gaps, with quotes in comments, comment
marks in literals, and a literal that is not closed. -/
def joiningSource : String :=
  "a / /* half */ / b + // it's\n+ c / /**/ * '/*\\'' /* \" */ \"//\" `*/ "

theorem minify_minify_joiningSource :
    minify joiningSource = "a/ /b+ +c/ *'/*\\'' \"//\" `*/ " ∧
      minify (minify joiningSource) = minify joiningSource ∧
      literals (pieces (minify joiningSource).toList) =
        ["'/*\\''", "\"//\"", "`*/ "].map String.toList ∧
      ∀ t, .comment t ∉ pieces (minify joiningSource).toList := by
  have hu : .item (.char openMark) ∉ (pieces joiningSource.toList).map tokenOf := by decide +kernel
  obtain ⟨hm, hl, hc⟩ := minify_minify joiningSource (reads_iff.mpr rfl) hu
  exact ⟨by decide +kernel, hm, hl.trans (by decide +kernel), hc⟩

end ModuleBundler
