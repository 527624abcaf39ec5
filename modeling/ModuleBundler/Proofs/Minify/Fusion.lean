import ModuleBundler.Proofs.Minify.Lexeme
import ModuleBundler.Proofs.Minify.Seam

/-!
# Lexemes that come together

When blanks are dropped, lexemes that stood apart come together. None of them becomes part of a longer lexeme, with
one exception: a number, a dot, and a lexeme that begins with a digit become a number with a dot
(`lexemes_minify_eq_iff`).
-/

namespace ModuleBundler.Minify

open Text

/-! ### Code without literals and comments -/

/-- A text without quotes, comments and opening marks. -/
structure Bare (cs : List Char) : Prop where
  quote : cs.any isQuote = false
  mark : openMark ∉ cs
  line : ¬ ['/', '/'] <:+: cs
  block : ¬ ['/', '*'] <:+: cs

theorem Bare.tail {c : Char} {cs : List Char} (h : Bare (c :: cs)) : Bare cs where
  quote := by
    have hq := h.quote
    rw [List.any_cons, Bool.or_eq_false_iff] at hq
    exact hq.2
  mark := fun hm => h.mark (List.mem_cons_of_mem c hm)
  line := fun hm => h.line (List.infix_cons hm)
  block := fun hm => h.block (List.infix_cons hm)

/-- The characters of a bare text are its pieces. -/
theorem pieces_of_bare {cs : List Char} (h : Bare cs) : pieces cs = cs.map .code := by
  induction cs with
  | nil => rw [pieces]; rfl
  | cons c cs ih =>
    have hq : isQuote c = false := by
      have hq := h.quote
      rw [List.any_cons, Bool.or_eq_false_iff] at hq
      exact hq.1
    have hpair : ∀ d, ¬ ['/', d] <:+: c :: cs → c = '/' → cs.head? ≠ some d := by
      rintro d hd rfl hhead
      obtain ⟨cs, rfl⟩ := List.head?_eq_some_iff.mp hhead
      exact hd ⟨[], cs, rfl⟩
    rw [pieces_code hq fun e => ⟨hpair '/' h.line e, hpair '*' h.block e⟩, ih h.tail, List.map_cons]

/-- A text of code without its needless blanks. `left` is the character before the text, and `gap` tells whether a gap
was met after it. -/
def squeeze (left : Option Char) (gap : Bool) (cs : List Char) : List Char :=
  spell left gap (cs.map fun c => tokenOf (.code c))

/-- A bare text loses its needless blanks and nothing else. -/
theorem minifyChars_of_bare {cs : List Char} (h : Bare cs) : minifyChars cs = squeeze none false cs := by
  have htokens : tokens cs = cs.map fun c => tokenOf (.code c) := by
    rw [tokens, pieces_of_bare h, List.map_map]
    rfl
  have hmark : .item (.char openMark) ∉ tokens cs := by
    rw [htokens, List.mem_map]
    rintro ⟨c, hc, he⟩
    rw [tokenOf] at he
    split_ifs at he
    cases he
    exact h.mark hc
  rw [minifyChars_of_reads (reads_iff.mpr rfl) hmark, ← tokens, htokens, squeeze]

/-! ### Squeezing -/

theorem squeeze_nil (left : Option Char) (gap : Bool) : squeeze left gap [] = [] := rfl

theorem squeeze_blank {c : Char} (hc : isBlank c = true) (left : Option Char) (gap : Bool) (cs : List Char) :
    squeeze left gap (c :: cs) = squeeze left true cs := by
  rw [squeeze, List.map_cons, tokenOf, if_pos hc]
  rfl

theorem squeeze_char {c : Char} (hc : isBlank c = false) (left : Option Char) (gap : Bool) (cs : List Char) :
    squeeze left gap (c :: cs) =
      (if gap && left.any (needsSpace · c) then [' '] else []) ++ c :: squeeze (some c) false cs := by
  rw [squeeze, List.map_cons, tokenOf, if_neg (by simp [hc]), spell]
  show (if gap && left.any (needsSpace · c) then _ else _) = _
  split_ifs <;> rfl

/-- A run of characters without blanks is left as it is. -/
theorem squeeze_run {l : List Char} (hl : ∀ c ∈ l, isBlank c = false) (rest : List Char) :
    ∀ left : Option Char, squeeze left false (l ++ rest) = l ++ squeeze (l.getLast?.or left) false rest := by
  induction l with
  | nil => exact fun _ => rfl
  | cons c l ih =>
    obtain ⟨hc, hl⟩ := List.forall_mem_cons.mp hl
    intro left
    have hlast : (c :: l).getLast?.or left = l.getLast?.or (some c) := by
      rw [List.getLast?_cons]
      cases l.getLast? <;> rfl
    rw [List.cons_append, squeeze_char hc, Bool.false_and, if_neg Bool.false_ne_true, ih hl, hlast]
    rfl

/-- A lexeme is left as it is, after a space if it needs one. -/
theorem squeeze_lexeme {l : List Char} (hl : Lexeme l) (rest : List Char) (left : Option Char) (gap : Bool) :
    ∃ space, (space = [] ∨ space = [' ']) ∧
      squeeze left gap (l ++ rest) = space ++ (l ++ squeeze l.getLast? false rest) := by
  have hblank := hl.isBlank_eq_false
  obtain ⟨c, l, rfl⟩ := List.exists_cons_of_ne_nil hl.ne_nil
  obtain ⟨hc, hrun⟩ := List.forall_mem_cons.mp hblank
  refine ⟨if gap && left.any (needsSpace · c) then [' '] else [], by split_ifs <;> simp, ?_⟩
  have hlast : l.getLast?.or (some c) = (c :: l).getLast? := by
    rw [List.getLast?_cons]
    cases l.getLast? <;> rfl
  rw [List.cons_append, squeeze_char hc, squeeze_run hrun, hlast]
  rfl

/-- The blanks in front of a text make a gap. -/
theorem squeeze_dropWhile (left : Option Char) (cs : List Char) : ∀ gap, ∃ gap',
    squeeze left gap cs = squeeze left gap' (cs.dropWhile isBlank) ∧
      (gap' = false → gap = false ∧ cs.dropWhile isBlank = cs) := by
  induction cs with
  | nil => exact fun gap => ⟨gap, rfl, fun h => ⟨h, rfl⟩⟩
  | cons c cs ih =>
    intro gap
    cases hc : isBlank c with
    | false =>
      have hdrop : (c :: cs).dropWhile isBlank = c :: cs := List.dropWhile_cons_of_neg (by simp [hc])
      exact ⟨gap, by rw [hdrop], fun h => ⟨h, hdrop⟩⟩
    | true =>
      obtain ⟨gap', hsqueeze, hgap⟩ := ih true
      refine ⟨gap', ?_, fun h => absurd (hgap h).1 (by decide)⟩
      rw [squeeze_blank hc, List.dropWhile_cons_of_pos hc, hsqueeze]

theorem isBlank_of_dropWhile {cs rest : List Char} {c : Char} (h : cs.dropWhile isBlank = c :: rest) :
    isBlank c = false := by
  have hc := List.head?_dropWhile_not isBlank cs
  rwa [h] at hc

/-- A character that needs no space comes first. -/
theorem squeeze_of_dropWhile {cs rest : List Char} {c : Char} (h : cs.dropWhile isBlank = c :: rest)
    {left : Option Char} (hl : left.any (needsSpace · c) = false) (gap : Bool) :
    squeeze left gap cs = c :: squeeze (some c) false rest := by
  obtain ⟨gap', hsqueeze, -⟩ := squeeze_dropWhile left cs gap
  rw [hsqueeze, h, squeeze_char (isBlank_of_dropWhile h), hl, Bool.and_false, if_neg Bool.false_ne_true]
  rfl

/-- A character that comes first is the first one that is no blank, and if it needs a space there is no blank before
it. -/
theorem dropWhile_of_squeeze {cs rest : List Char} {c : Char} (hc : isBlank c = false) {left : Option Char}
    {gap : Bool} (h : squeeze left gap cs = c :: rest) :
    ∃ after, cs.dropWhile isBlank = c :: after ∧ rest = squeeze (some c) false after ∧
      (left.any (needsSpace · c) = true → cs = c :: after) := by
  obtain ⟨gap', hsqueeze, hgap⟩ := squeeze_dropWhile left cs gap
  rw [hsqueeze] at h
  cases hdrop : cs.dropWhile isBlank with
  | nil =>
    rw [hdrop] at h
    cases h
  | cons d after =>
    rw [hdrop, squeeze_char (isBlank_of_dropWhile hdrop)] at h
    split_ifs at h with hspace
    · obtain rfl := (List.cons.inj h).1
      exact absurd hc (by decide)
    · obtain ⟨rfl, rfl⟩ := List.cons.inj h
      refine ⟨after, rfl, rfl, fun hneed => ?_⟩
      rw [hneed, Bool.and_true, Bool.not_eq_true] at hspace
      rw [← (hgap hspace).2, hdrop]

/-! ### Lexemes side by side -/

/-- Blanks in front of a text do not count. -/
theorem munches_dropWhile_iff {cs : List Char} {ls : List (List Char)} :
    Munches (cs.dropWhile isBlank) ls ↔ Munches cs ls := by
  induction cs with
  | nil => rfl
  | cons c cs ih =>
    cases hc : isBlank c with
    | false => rw [List.dropWhile_cons_of_neg (by simp [hc])]
    | true => rw [List.dropWhile_cons_of_pos hc, ih, munches_blank_iff hc]

/-- The first character after the blanks begins the first lexeme. -/
theorem Munches.exists_cons {cs after : List Char} {c : Char} {ls : List (List Char)} (h : Munches cs ls)
    (hcs : cs.dropWhile isBlank = c :: after) :
    ∃ l rest ks, ls = (c :: l) :: ks ∧ after = l ++ rest ∧ Lexeme (c :: l) ∧ Munches rest ks := by
  have hdrop := munches_dropWhile_iff.mpr h
  rw [hcs] at hdrop
  obtain ⟨l, rest, ks, he, rfl, hl, -, hrest⟩ := hdrop.exists_lexeme (isBlank_of_dropWhile hcs)
  obtain ⟨d, l, rfl⟩ := List.exists_cons_of_ne_nil hl.ne_nil
  obtain ⟨rfl, hafter⟩ := List.cons.inj he
  exact ⟨l, rest, ks, rfl, hafter, hl, hrest⟩

/-- The first lexeme begins with the first character after the blanks. -/
theorem Munches.exists_dropWhile {cs l : List Char} {c : Char} {ls : List (List Char)}
    (h : Munches cs ((c :: l) :: ls)) :
    ∃ rest, cs.dropWhile isBlank = c :: (l ++ rest) ∧ Munches rest ls := by
  cases hcs : cs.dropWhile isBlank with
  | nil =>
    have hdrop := munches_dropWhile_iff.mpr h
    rw [hcs] at hdrop
    cases munches_nil_iff.mp hdrop
  | cons d after =>
    obtain ⟨l', rest, ks, he, rfl, -, hrest⟩ := h.exists_cons hcs
    cases he
    exact ⟨rest, rfl, hrest⟩

/-- After a word, and after a digit, characters of words need a space. -/
theorem any_needsSpace {l : List Char} {c : Char} (hne : l ≠ [])
    (hl : ∀ a, l.getLast? = some a → isWordLike a = true) (hc : isWordLike c = true) :
    l.getLast?.any (needsSpace · c) = true := by
  obtain ⟨init, a, rfl⟩ := (List.eq_nil_or_concat' l).resolve_left hne
  have ha : isWordLike a = true := hl a (by simp)
  simp [needsSpace, ha, hc]

theorem eq_of_append_eq_pair {l m : List Char} {a b c : Char} (hne : l ≠ []) (h : l ++ c :: m = [a, b]) :
    l = [a] ∧ c = b ∧ m = [] := by
  obtain ⟨d, l, rfl⟩ := List.exists_cons_of_ne_nil hne
  obtain ⟨rfl, htail⟩ := List.cons.inj h
  rcases List.append_eq_singleton_iff.mp htail with ⟨rfl, hm⟩ | ⟨-, hm⟩
  · exact ⟨rfl, List.cons.inj hm⟩
  · cases hm

/-- **What comes after a lexeme makes it longer** only where a space is needed between the two, or where a number, a
dot and a digit come together. -/
theorem Lexeme.append_cases {l m : List Char} {c : Char} (hl : Lexeme l) (hk : Lexeme (l ++ c :: m)) :
    (l.getLast?.any (needsSpace · c) = true ∧ Lexeme (l ++ [c])) ∨
      ((∀ d ∈ l, isDecimal d = true) ∧ c = '.' ∧ m.head?.any isDecimal = true) := by
  have hne := hl.ne_nil
  have hwords : (∀ d ∈ l ++ [c], isWordLike d = true) →
      l.getLast?.any (needsSpace · c) = true ∧ Lexeme (l ++ [c]) := fun hw =>
    ⟨any_needsSpace hne (fun a ha => hw a (List.mem_append_left _ (List.mem_of_getLast? ha))) (hw c (by simp)),
      .word (by simp) hw⟩
  have hfront : ∀ m, l ++ [c] <+: l ++ c :: m := fun m => ⟨m, by simp⟩
  generalize he : l ++ c :: m = k at hk
  cases hk with
  | word _ hw => exact .inl (hwords fun d hd => hw d (he ▸ (hfront m).subset hd))
  | @decimal ds es hds hes hd hdigits =>
    have hfraction : es.head?.any isDecimal = true := by
      obtain ⟨e, es, rfl⟩ := List.exists_cons_of_ne_nil hes
      exact hdigits e List.mem_cons_self
    rcases List.append_eq_append_iff.mp he with ⟨as, rfl, hc⟩ | ⟨bs, rfl, hc⟩
    · cases as with
      | nil =>
        obtain ⟨rfl, rfl⟩ := List.cons.inj hc
        rw [List.append_nil] at hd
        exact .inr ⟨hd, rfl, hfraction⟩
      | cons b as =>
        obtain ⟨rfl, -⟩ := List.cons.inj hc
        exact .inl (hwords fun d hdl => isWordLike_of_isDecimal (hd d ((hfront as).subset hdl)))
    · cases bs with
      | nil =>
        obtain ⟨rfl, rfl⟩ := List.cons.inj hc
        rw [List.append_nil]
        exact .inr ⟨hd, rfl, hfraction⟩
      | cons b bs =>
        -- the dot is in the lexeme already, with digits after it
        obtain rfl : '.' = b := (List.cons.inj hc).1
        have hes : es = bs ++ c :: m := (List.cons.inj hc).2
        have hbs : bs ≠ [] := by
          rintro rfl
          exact Lexeme.not_append_dot hds hl
        rw [hes, List.forall_mem_append, List.forall_mem_cons] at hdigits
        have hlast : ∀ a, (ds ++ '.' :: bs).getLast? = some a → isWordLike a = true := by
          intro a ha
          rw [List.getLast?_append_of_ne_nil _ (List.cons_ne_nil _ _), List.getLast?_cons_of_ne_nil hbs] at ha
          exact isWordLike_of_isDecimal (hdigits.1 a (List.mem_of_getLast? ha))
        have hlonger : Lexeme (ds ++ '.' :: (bs ++ [c])) :=
          .decimal hds (by simp) hd (List.forall_mem_append.mpr
            ⟨hdigits.1, List.forall_mem_singleton.mpr hdigits.2.1⟩)
        exact .inl ⟨any_needsSpace hne hlast (isWordLike_of_isDecimal hdigits.2.1), by simpa using hlonger⟩
  | increment =>
    obtain ⟨rfl, rfl, rfl⟩ := eq_of_append_eq_pair hne he
    exact .inl ⟨by decide, .increment⟩
  | decrement =>
    obtain ⟨rfl, rfl, rfl⟩ := eq_of_append_eq_pair hne he
    exact .inl ⟨by decide, .decrement⟩
  | char _ =>
    have hlength := congrArg List.length he
    have hpos := List.length_pos_of_ne_nil hne
    simp at hlength
    omega

/-! ### Numbers that meet a fraction -/

/-- `w` and the two lexemes after it are what a number with a dot is made of: digits, a dot, and a lexeme that begins
with a digit. -/
def MeetsAt (w : List Char) (ls : List (List Char)) : Prop :=
  (∀ c ∈ w, isDecimal c = true) ∧ ∃ x, x.head?.any isDecimal = true ∧ [['.'], x] <+: ls

/-- Somewhere among `ls` stand digits, a dot, and a lexeme that begins with a digit. -/
def Meets (ls : List (List Char)) : Prop :=
  ∃ w x, (∀ c ∈ w, isDecimal c = true) ∧ x.head?.any isDecimal = true ∧ [w, ['.'], x] <:+: ls

theorem not_meets_nil : ¬ Meets [] := by
  rintro ⟨w, x, -, -, h⟩
  cases List.infix_nil.mp h

theorem meets_cons_iff {l : List Char} {ls : List (List Char)} : Meets (l :: ls) ↔ MeetsAt l ls ∨ Meets ls := by
  constructor
  · rintro ⟨w, x, hw, hx, h⟩
    rw [List.infix_cons_iff, List.cons_prefix_cons] at h
    rcases h with ⟨rfl, h⟩ | h
    · exact .inl ⟨hw, x, hx, h⟩
    · exact .inr ⟨w, x, hw, hx, h⟩
  · rintro (⟨hw, x, hx, h⟩ | ⟨w, x, hw, hx, h⟩)
    · exact ⟨l, x, hw, hx, (List.cons_prefix_cons.mpr ⟨rfl, h⟩).isInfix⟩
    · exact ⟨w, x, hw, hx, List.infix_cons h⟩

/-- **A longest lexeme stays a longest lexeme when the blanks after it are dropped**, unless it is a number that meets
a fraction. -/
theorem longest_squeeze_iff {l rest : List Char} {ls : List (List Char)} (hl : Lexeme l) (h : Longest l rest)
    (hrest : Munches rest ls) : Longest l (squeeze l.getLast? false rest) ↔ ¬ MeetsAt l ls := by
  have hdot : ∀ c, needsSpace '.' c = false ∧ needsSpace c '.' = false :=
    fun c => needsSpace_of_standsApart (by decide) c
  constructor
  · rintro hlongest ⟨hdigits, x, hx, ks, rfl⟩
    obtain ⟨e, x, rfl⟩ : ∃ e x', x = e :: x' := List.exists_cons_of_ne_nil (by rintro rfl; cases hx)
    -- the dot comes right after the number, and the digit right after the dot
    obtain ⟨after, hafter, hks⟩ := hrest.exists_dropWhile
    obtain ⟨rest', hrest', -⟩ := hks.exists_dropWhile
    have hsqueeze : squeeze l.getLast? false rest = '.' :: e :: squeeze (some e) false (x ++ rest') := by
      rw [squeeze_of_dropWhile hafter, List.nil_append, squeeze_of_dropWhile hrest']
      · exact (hdot e).1
      · cases l.getLast? with
        | none => rfl
        | some a => exact (hdot a).2
    have hnumber : Lexeme (l ++ '.' :: [e]) :=
      .decimal hl.ne_nil (List.cons_ne_nil _ _) hdigits (List.forall_mem_singleton.mpr hx)
    have hle := hlongest _ hnumber (by rw [hsqueeze]; exact ⟨_, List.append_assoc _ _ _⟩)
    exact absurd hle (by simp)
  · intro hmeets k hk hfront
    by_contra hlt
    obtain ⟨more, rfl⟩ := List.prefix_of_prefix_length_le (List.prefix_append l _) hfront (le_of_not_ge hlt)
    cases more with
    | nil => exact hlt (by simp)
    | cons c m =>
      obtain ⟨tail, htail⟩ := (List.prefix_append_right_inj l).mp hfront
      have hc : isBlank c = false := hk.isBlank_eq_false c (by simp)
      obtain ⟨after, hafter, hm, hnext⟩ := dropWhile_of_squeeze hc htail.symm
      rcases hl.append_cases hk with ⟨hneed, hlonger⟩ | ⟨hdigits, rfl, hdigit⟩
      · -- the character stood there before squeezing
        have hle := h _ hlonger (by rw [hnext hneed]; exact ⟨after, by simp⟩)
        exact absurd hle (by simp)
      · -- the dot is a lexeme, and so the digit begins the next one
        obtain ⟨e, m, rfl⟩ : ∃ e m', m = e :: m' := List.exists_cons_of_ne_nil (by rintro rfl; cases hdigit)
        have he : isBlank e = false := isBlank_of_isWordLike (isWordLike_of_isDecimal hdigit)
        obtain ⟨after', hafter', -, -⟩ := dropWhile_of_squeeze he hm.symm
        obtain ⟨l', rest', ks, rfl, rfl, hl', hks⟩ := hrest.exists_cons hafter
        obtain rfl := hl'.eq_dot
        obtain ⟨x, rest', ks, rfl, -⟩ := hks.exists_cons hafter'
        exact hmeets ⟨hdigits, e :: x, hdigit, ks, rfl⟩

/-- **Squeezing keeps the lexemes of a text**, unless a number meets a fraction among them. -/
theorem munches_squeeze_iff {cs : List Char} {ls : List (List Char)} (h : Munches cs ls) :
    ∀ (left : Option Char) (gap : Bool), Munches (squeeze left gap cs) ls ↔ ¬ Meets ls := by
  induction h with
  | nil =>
    intro left gap
    rw [squeeze_nil, munches_nil_iff]
    exact ⟨fun _ => not_meets_nil, fun _ => rfl⟩
  | blank hc _ ih =>
    intro left gap
    rw [squeeze_blank hc]
    exact ih left true
  | @lexeme l rest ls hl hlongest hrest ih =>
    intro left gap
    obtain ⟨space, hspace, hsqueeze⟩ := squeeze_lexeme hl rest left gap
    have hskip : ∀ cs, Munches (space ++ cs) (l :: ls) ↔ Munches cs (l :: ls) := by
      intro cs
      rcases hspace with rfl | rfl
      · rfl
      · exact munches_blank_iff (by decide)
    rw [hsqueeze, hskip, munches_append_iff hl, longest_squeeze_iff hl hlongest hrest, ih, meets_cons_iff, not_or]

end ModuleBundler.Minify

namespace ModuleBundler

open Minify

/-- **Dropping blanks fuses lexemes only where a number meets a fraction.** Every text has one splitting into lexemes by
maximal munch. In a source without literals, comments and opening marks, the lexemes of the minified source are those
of the source, if and only if no number, dot and lexeme that begins with a digit stand side by side among them. -/
theorem lexemes_minify_eq_iff {source : String} (hs : Bare source.toList) :
    (∀ cs ls, Munches cs ls ↔ ls = lexemes cs) ∧
      (lexemes (minify source).toList = lexemes source.toList ↔ ¬ Meets (lexemes source.toList)) := by
  refine ⟨fun _ _ => munches_iff, ?_⟩
  rw [minify, String.toList_ofList, minifyChars_of_bare hs, eq_comm, ← munches_iff]
  exact munches_squeeze_iff (munches_lexemes _) none false

/-- Signs, slashes and dots that stay apart or come together harmlessly. -/
def looseSigns : String := "a ++ + b - -- c / /re/ 1.5 .x a1 .5 1. .5 [ n . m ]"

theorem lexemes_minify_eq_iff_looseSigns :
    Bare looseSigns.toList ∧ minify looseSigns = "a++ +b- --c/ /re/1.5.x a1.5 1..5[n.m]" ∧
      lexemes (minify looseSigns).toList = lexemes looseSigns.toList ∧ ¬ Meets (lexemes looseSigns.toList) := by
  have hbare : Bare looseSigns.toList :=
    ⟨by decide +kernel, by decide +kernel, by decide +kernel, by decide +kernel⟩
  have heq : lexemes (minify looseSigns).toList = lexemes looseSigns.toList := by decide +kernel
  exact ⟨hbare, by decide +kernel, heq, (lexemes_minify_eq_iff hbare).2.mp heq⟩

/-- A number, a dot and digits become one number. -/
theorem lexemes_minify_fraction :
    Bare "f(1 .5)".toList ∧ minify "f(1 .5)" = "f(1.5)" ∧
      lexemes "f(1 .5)".toList = ["f", "(", "1", ".", "5", ")"].map String.toList ∧
      lexemes "f(1.5)".toList = ["f", "(", "1.5", ")"].map String.toList :=
  ⟨⟨by decide +kernel, by decide +kernel, by decide +kernel, by decide +kernel⟩, by decide +kernel,
    by decide +kernel, by decide +kernel⟩

end ModuleBundler
