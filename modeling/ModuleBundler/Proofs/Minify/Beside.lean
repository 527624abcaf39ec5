import ModuleBundler.Proofs.Minify.Idempotence
import ModuleBundler.Proofs.Minify.Seam

/-!
# Minified texts side by side

Two texts that stand one below the other are minified to what each of them is minified to, with a space between
the two where the last item of the one and the first item of the other must not stand side by side. Only these
two items count, and they are the same before and after minifying. So any number of texts can be minified one by
one and put side by side from left to right (`minify_lines_fold`).
-/

namespace ModuleBundler.Minify

open Text

/-! ### Items -/

/-- The items of a source, in order. -/
def items (cs : List Char) : List Item := (tokens cs).filterMap Token.item?

/-- What stands between two items over a gap, where there are two. -/
def between : Option Item → Option Item → List Char
  | some i, some j => if needsSpace i.edge j.edge then [' '] else []
  | _, _ => []

theorem between_none_right (i : Option Item) : between i none = [] := by
  cases i <;> rfl

/-- The last item decides what may stand after tokens. -/
theorem endOf_fst (ts : List Token) : ∀ (left : Option Char) (gap : Bool),
    (endOf left gap ts).1 = ((ts.filterMap Token.item?).getLast?.map Item.edge).or left := by
  induction ts with
  | nil => intro left gap; rfl
  | cons t ts ih =>
    intro left gap
    cases t with
    | gap => exact ih left true
    | item i =>
      rw [endOf, ih]
      show _ = ((i :: ts.filterMap Token.item?).getLast?.map Item.edge).or left
      rw [List.getLast?_cons]
      cases (ts.filterMap Token.item?).getLast? <;> rfl

/-- After a gap tokens are spelled as at the beginning of a text, but for a space where one is needed. -/
theorem spell_gap (i : Option Item) (ts : List Token) :
    spell (i.map Item.edge) true ts =
      between i (ts.filterMap Token.item?).head? ++ spell none false ts := by
  induction ts with
  | nil => rw [spell, spell, List.filterMap_nil, List.head?_nil, between_none_right, List.nil_append]
  | cons t ts ih =>
    cases t with
    | gap =>
      rw [spell, spell, ih, spell_of_left (fun _ => rfl) ts true false]
      rfl
    | item j =>
      rw [spell, spell, Bool.true_and, Bool.false_and, if_neg Bool.false_ne_true]
      show _ = between i (some j) ++ _
      cases i with
      | none => rfl
      | some i => rw [between, Option.map_some, Option.any_some]; split_ifs <;> rfl

/-- What stands before tokens can only add a space in front of what is spelled. -/
theorem spell_suffix (ts : List Token) : ∀ (left : Option Char) (gap : Bool),
    spell none false ts <:+ spell left gap ts := by
  induction ts with
  | nil => intro left gap; rw [spell, spell]
  | cons t ts ih =>
    intro left gap
    cases t with
    | gap =>
      rw [spell, spell, spell_of_left (fun _ => rfl) ts true false]
      exact ih left true
    | item i =>
      rw [spell, spell, Bool.false_and, if_neg Bool.false_ne_true]
      split_ifs
      · exact List.suffix_cons ' ' _
      · exact List.suffix_rfl

/-- Tokens that stand among others are spelled among them. -/
theorem spell_infix {us ts : List Token} (h : us <:+: ts) (left : Option Char) (gap : Bool) :
    spell none false us <:+: spell left gap ts := by
  obtain ⟨as, bs, rfl⟩ := h
  obtain ⟨space, hspace⟩ := spell_suffix us (endOf left gap as).1 (endOf left gap as).2
  rw [spell_append, spell_append, ← hspace, ← List.append_assoc]
  exact List.infix_append _ _ _

/-- Something is spelled for every item. -/
theorem spell_eq_nil_iff {cs : List Char} {ts : List Token} (h : Reads cs ts) :
    ∀ (left : Option Char) (gap : Bool), spell left gap ts = [] ↔ ts.filterMap Token.item? = [] := by
  -- no item has an empty text, and a reading without items has gaps only
  induction h with
  | nil => intro left gap; rw [spell]; simp
  | lineComment _ _ _ ih | blockComment _ _ ih | blank _ _ ih => exact fun left gap => ih left true
  | openComment _ => intro left gap; rw [spell, spell]; simp [Token.item?]
  | literal _ _ _ _ | openLiteral _ _ _ | char _ _ _ _ _ =>
    intro left gap
    rw [spell]
    split_ifs <;> simp [Item.text, Token.item?]

/-! ### Two texts -/

/-- **A tidy text above another one** is minified on its own, with what the items at the seam need between the
two. -/
theorem minifyChars_append_line_eq {a b : List Char} (ha : Tidy a) (hb : .item (.char openMark) ∉ tokens b) :
    minifyChars (a ++ '\n' :: b) =
      minifyChars a ++ (between (items a).getLast? (items b).head? ++ minifyChars b) := by
  have hmark : .item (.char openMark) ∉ tokens (a ++ '\n' :: b) := by
    rw [tokens_append_line ha.isSealed, List.mem_append, List.mem_cons]
    rintro (h | h | h)
    · exact ha.openMark_notMem h
    · cases h
    · exact hb h
  have hlast : (endOf none false (tokens a)).1 = (items a).getLast?.map Item.edge := by
    rw [endOf_fst, Option.or_none]
    rfl
  rw [minifyChars_of_reads (reads_iff.mpr rfl) hmark, ha.minifyChars_eq,
    minifyChars_of_reads (reads_iff.mpr rfl) hb, ← tokens, tokens_append_line ha.isSealed, spell_append, spell,
    hlast, spell_gap]
  rfl

/-- What is spelled has the items that it was spelled from. -/
theorem items_spell_tokens (cs : List Char) : items (spell none false (tokens cs)) = items cs := by
  rw [items, tokens, ← reads_iff.mp (reads_spell (reads_iff.mpr rfl) none false), item?_settle]
  rfl

/-- Minifying keeps the items. -/
theorem items_minifyChars {cs : List Char} (h : .item (.char openMark) ∉ tokens cs) :
    items (minifyChars cs) = items cs := by
  rw [minifyChars_of_reads (reads_iff.mpr rfl) h, items_spell_tokens]

theorem minifyChars_eq_nil_iff {cs : List Char} (h : .item (.char openMark) ∉ tokens cs) :
    minifyChars cs = [] ↔ items cs = [] := by
  have hr : Reads cs (tokens cs) := reads_iff.mpr rfl
  rw [minifyChars_of_reads hr h]
  exact spell_eq_nil_iff hr none false

end ModuleBundler.Minify

namespace ModuleBundler

open Minify

/-- What stands between two texts when they are minified one below the other: a space if the last item of the
first one and the first item of the second one must not stand side by side. -/
def seam (a b : String) : String := String.ofList (between (items a.toList).getLast? (items b.toList).head?)

/-- Two minified texts side by side. -/
def beside (a b : String) : String := a ++ seam a b ++ b

/-! ### Any number of texts -/

theorem minify_append_line {a b : String} (ha : Tidy a.toList)
    (hb : .item (.char openMark) ∉ tokens b.toList) :
    minify (a ++ "\n" ++ b) = minify a ++ seam a b ++ minify b := by
  have hchars : (a ++ "\n" ++ b).toList = a.toList ++ '\n' :: b.toList := by simp
  refine String.toList_inj.mp ?_
  simp only [minify, seam, String.toList_append, String.toList_ofList, hchars,
    minifyChars_append_line_eq ha hb, List.append_assoc]

/-- The seam is the same before and after minifying. -/
theorem seam_minify {a b : String} (ha : .item (.char openMark) ∉ tokens a.toList)
    (hb : .item (.char openMark) ∉ tokens b.toList) : seam (minify a) (minify b) = seam a b := by
  simp only [seam, minify, String.toList_ofList, items_minifyChars ha, items_minifyChars hb]

theorem minify_append_line_beside {a b : String} (ha : Tidy a.toList)
    (hb : .item (.char openMark) ∉ tokens b.toList) :
    minify (a ++ "\n" ++ b) = beside (minify a) (minify b) := by
  rw [beside, seam_minify ha.openMark_notMem hb, minify_append_line ha hb]

theorem minify_eq_empty_iff {s : String} (h : .item (.char openMark) ∉ tokens s.toList) :
    minify s = "" ↔ items s.toList = [] := by
  rw [← minifyChars_eq_nil_iff h, ← String.toList_inj, minify, String.toList_ofList]
  rfl

theorem beside_empty_left (b : String) : beside "" b = b := by
  have hitems : items [] = [] := by rw [items, tokens, pieces]; rfl
  have hseam : seam "" b = "" := by
    rw [seam, String.toList_empty, hitems]
    rfl
  rw [beside, hseam, String.empty_append, String.empty_append]

/-- **Texts one below the other are minified one by one**, and put side by side from left to right. All but the
last one must not leave a literal or a block comment open. -/
theorem minify_lines_fold {texts : List String} (ht : ∀ t ∈ texts.dropLast, Tidy t.toList)
    (hu : ∀ t ∈ texts, .item (.char openMark) ∉ tokens t.toList) :
    minify ("\n".intercalate texts) = (texts.map minify).foldl beside "" := by
  induction texts using List.reverseRecOn with
  | nil => rfl
  | append_singleton texts last ih =>
    rw [List.dropLast_concat] at ht
    rw [List.forall_mem_append, List.forall_mem_singleton] at hu
    have hrest : minify ("\n".intercalate texts) = (texts.map minify).foldl beside "" :=
      ih (fun t h => ht t (List.mem_of_mem_dropLast h)) hu.1
    rw [List.map_append, List.foldl_append, ← hrest, List.map_singleton, List.foldl_cons, List.foldl_nil]
    by_cases hnil : texts = []
    · subst hnil
      rw [List.map_nil, List.foldl_nil] at hrest
      rw [hrest, beside_empty_left, List.nil_append, String.intercalate_singleton]
    · have htidy : Tidy ("\n".intercalate texts).toList := by
        rw [String.toList_intercalate]
        exact tidy_lines (List.forall_mem_map.mpr ht)
      rw [String.intercalate_append_of_ne_nil hnil (List.cons_ne_nil last []), String.intercalate_singleton,
        minify_append_line_beside htidy hu.2]

end ModuleBundler
