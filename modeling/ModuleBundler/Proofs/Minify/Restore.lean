import ModuleBundler.Minify
import ModuleBundler.Proofs.Minify.Settle
import ModuleBundler.Proofs.Minify.Spacing

/-!
# Minifying spells the items

Putting the literals back is the last step of minifying. A placeholder is read as the number that it was made from.
Other text is taken for a placeholder only where an opening mark, a number and a closing mark of code come together,
which forges a literal (`restored_minifyChars`). Where none is forged, the result is the items of the source, in order,
with one space where a gap is needed; so it is where the opening mark is not among the characters of code
(`minify_eq_spell`).
-/

namespace ModuleBundler.Minify

open Text

/-! ### Placeholders -/

theorem readIndex?_toString (n : Nat) : readIndex? (toString n).toList = some n := by
  rw [readIndex?]
  · exact readDigits?_toString n
  · intro ds h
    have hplus : '+' ∈ (toString n).toList := h ▸ List.mem_cons_self
    exact absurd (isDigit_of_mem_toString hplus) (by decide)

/-- A number is written in digits, perhaps with a plus sign before them. -/
theorem isDigit_or_plus_of_readIndex? {ds : List Char} {n : Nat} (h : readIndex? ds = some n) {c : Char}
    (hc : c ∈ ds) : c.isDigit = true ∨ c = '+' := by
  unfold readIndex? at h
  split at h
  next rest =>
    rcases List.mem_cons.mp hc with rfl | hc
    · exact .inr rfl
    · exact .inl ((readDigits?_eq_some_iff.mp h).2.1 c hc)
  next => exact .inl ((readDigits?_eq_some_iff.mp h).2.1 c hc)

/-- A number before a closing mark stands for the literal of that number. -/
theorem readPlaceholder?_number {table : List (List Char)} {ds : List Char} {n : Nat} {t : List Char}
    (hd : readIndex? ds = some n) (h : table[n]? = some t) (rest : List Char) :
    readPlaceholder? table (ds ++ closeMark :: rest) = some (t, rest) := by
  have hopen : ∀ c ∈ ds, (c != closeMark) = true := by
    intro c hc
    refine bne_iff_ne.mpr ?_
    rintro rfl
    exact absurd (isDigit_or_plus_of_readIndex? hd hc) (by decide)
  have hclose : ∀ c, (closeMark :: rest).head? = some c → (c != closeMark) = false := by
    intro c hc
    obtain rfl := Option.some.inj hc
    exact bne_self_eq_false closeMark
  unfold readPlaceholder?
  rw [takeWhile_append_of_stop hopen hclose, dropWhile_append_of_stop hopen hclose, hd]
  simp only [Option.bind_eq_bind, Option.bind_some, h, Option.pure_def]

/-- What is read as the number of a literal is a number before a closing mark. -/
theorem exists_of_readPlaceholder? {table : List (List Char)} {cs t after : List Char}
    (h : readPlaceholder? table cs = some (t, after)) :
    ∃ ds n, readIndex? ds = some n ∧ table[n]? = some t ∧ cs = ds ++ closeMark :: after := by
  unfold readPlaceholder? at h
  split at h
  next => cases h
  next c after' hdrop =>
    have hc : c = closeMark := by
      have hstop := List.head?_dropWhile_not (· != closeMark) cs
      rw [hdrop] at hstop
      simpa using hstop
    simp only [Option.bind_eq_bind, Option.bind_eq_some_iff, Option.pure_def, Option.some.injEq,
      Prod.mk.injEq] at h
    obtain ⟨n, hn, t', ht, rfl, rfl⟩ := h
    refine ⟨_, n, hn, ht, ?_⟩
    calc cs = cs.takeWhile (· != closeMark) ++ cs.dropWhile (· != closeMark) :=
          List.takeWhile_append_dropWhile.symm
      _ = _ := by rw [hdrop, hc]

theorem restore_openMark {table : List (List Char)} {cs t after : List Char}
    (h : readPlaceholder? table cs = some (t, after)) :
    restore table (openMark :: cs) = t ++ restore table after := by
  rw [restore, if_pos rfl]
  split
  next e =>
    rw [h] at e
    cases e
    rfl
  next e =>
    rw [h] at e
    cases e

/-- An opening mark without the number of a literal after it stands for itself. -/
theorem restore_openMark_none {table : List (List Char)} {cs : List Char}
    (h : readPlaceholder? table cs = none) :
    restore table (openMark :: cs) = openMark :: restore table cs := by
  rw [restore, if_pos rfl]
  split
  next e =>
    rw [h] at e
    cases e
  next => rfl

/-- A placeholder stands for the literal of its number. -/
theorem restore_placeholder {table : List (List Char)} {n : Nat} {t : List Char}
    (h : table[n]? = some t) (rest : List Char) :
    restore table (placeholder n ++ rest) = t ++ restore table rest := by
  have hp : placeholder n ++ rest = openMark :: ((toString n).toList ++ closeMark :: rest) := by
    simp [placeholder]
  rw [hp, restore_openMark (readPlaceholder?_number (readIndex?_toString n) h rest)]

theorem restore_char {c : Char} (h : c ≠ openMark) (table : List (List Char)) (cs : List Char) :
    restore table (c :: cs) = c :: restore table cs := by
  rw [restore, if_neg h]

/-! ### Forged literals -/

/-- A character of code. -/
def codeToken (c : Char) : Token := .item (.char c)

/-- `ts` begins with a number below `count` and a closing mark, all of them characters of code. -/
def ForgedAt (count : ℕ) (ts : List Token) : Prop :=
  ∃ ds n, readIndex? ds = some n ∧ n < count ∧ (ds ++ [closeMark]).map codeToken <+: ts

/-- Somewhere in `ts` stand an opening mark, a number below `count` and a closing mark, all of them characters of
code. -/
def ForgedIn (count : ℕ) (ts : List Token) : Prop :=
  ∃ ds n, readIndex? ds = some n ∧ n < count ∧ (openMark :: (ds ++ [closeMark])).map codeToken <:+: ts

/-- A source forges one of its literals: when the gaps are dropped, an opening mark of code, the number of a literal
and a closing mark of code stand side by side. -/
def Forged (cs : List Char) : Prop := ForgedIn (literals (pieces cs)).length (settled cs)

theorem not_forgedIn_nil (count : ℕ) : ¬ ForgedIn count [] := by
  rintro ⟨ds, n, -, -, h⟩
  rw [List.infix_nil] at h
  cases h

/-- A literal is forged by the first token and what follows it, or by later tokens. -/
theorem forgedIn_cons_iff {count : ℕ} {t : Token} {ts : List Token} :
    ForgedIn count (t :: ts) ↔ (t = codeToken openMark ∧ ForgedAt count ts) ∨ ForgedIn count ts := by
  constructor
  · rintro ⟨ds, n, hd, hn, h⟩
    rw [List.infix_cons_iff, List.map_cons, List.cons_prefix_cons] at h
    rcases h with ⟨rfl, h⟩ | h
    · exact .inl ⟨rfl, ds, n, hd, hn, h⟩
    · exact .inr ⟨ds, n, hd, hn, h⟩
  · rintro (⟨rfl, ds, n, hd, hn, h⟩ | ⟨ds, n, hd, hn, h⟩)
    · exact ⟨ds, n, hd, hn, ((List.prefix_cons_inj _).mpr h).isInfix⟩
    · exact ⟨ds, n, hd, hn, List.infix_cons h⟩

/-! ### Restoring -/

theorem literals_eq (ps : List Piece) : literals ps = (ps.map tokenOf).filterMap Token.literal? := by
  rw [literals, List.filterMap_map]
  congr 1
  funext p
  cases p with
  | code c => cases h : isBlank c <;> simp [tokenOf, h, Token.literal?]
  | _ => rfl

/-- The first literal of tokens is the one of their first number. -/
theorem getElem?_of_literal?_cons {table : List (List Char)} {n : Nat} {t : List Char} {ts : List Token}
    (h : (.item (.literal t) :: ts).filterMap Token.literal? = table.drop n) :
    table[n]? = some t ∧ ts.filterMap Token.literal? = table.drop (n + 1) := by
  replace h : t :: ts.filterMap Token.literal? = table.drop n := h
  constructor
  · rw [← List.head?_drop, ← h, List.head?_cons]
  · rw [← List.tail_drop, ← h, List.tail_cons]

theorem numberFrom_codeTokens (ds : List Char) (n : ℕ) (ts : List Token) :
    numberFrom n (ds.map codeToken ++ ts) = ds.map codeToken ++ numberFrom n ts := by
  induction ds with
  | nil => rfl
  | cons d ds ih =>
    rw [List.map_cons, List.cons_append, List.cons_append, ← ih]
    rfl

theorem flatMap_text_codeTokens (ds : List Char) (ts : List Token) :
    (ds.map codeToken ++ ts).flatMap Token.text = ds ++ ts.flatMap Token.text := by
  rw [List.flatMap_append]
  congr 1
  induction ds with
  | nil => rfl
  | cons d ds ih => rw [List.map_cons, List.flatMap_cons, ih]; rfl

/-- Of tokens with numbers for their literals, only characters of code are spelled without a space and without an
opening mark. -/
theorem codeTokens_prefix {ds : List Char} (hd : ∀ c ∈ ds, c ≠ ' ' ∧ c ≠ openMark) :
    ∀ {ts : List Token} {n : ℕ}, ds <+: (numberFrom n ts).flatMap Token.text → ds.map codeToken <+: ts := by
  induction ds with
  | nil => exact fun _ => List.nil_prefix
  | cons d ds ih =>
    obtain ⟨⟨hspace, hmark⟩, hds⟩ := List.forall_mem_cons.mp hd
    intro ts n h
    cases ts with
    | nil => cases List.prefix_nil.mp h
    | cons t ts =>
      cases t with
      | gap => exact absurd (List.cons_prefix_cons.mp h).1 hspace
      | item i =>
        cases i with
        | char c =>
          obtain ⟨rfl, hrest⟩ := List.cons_prefix_cons.mp h
          exact List.cons_prefix_cons.mpr ⟨rfl, ih hds hrest⟩
        | literal t => exact absurd (List.cons_prefix_cons.mp h).1 hmark

/-- What follows an opening mark is taken for the number of a literal only if it forges one. -/
theorem forgedAt_of_readPlaceholder? {table : List (List Char)} {ts : List Token} {n : ℕ} {t after : List Char}
    (h : readPlaceholder? table ((numberFrom n ts).flatMap Token.text) = some (t, after)) :
    ForgedAt table.length ts ∧ t ∈ table := by
  obtain ⟨ds, k, hk, ht, hcs⟩ := exists_of_readPlaceholder? h
  obtain ⟨hlt, rfl⟩ := List.getElem?_eq_some_iff.mp ht
  refine ⟨⟨ds, k, hk, hlt, codeTokens_prefix (fun c hc => ?_) (n := n) ?_⟩, List.getElem_mem hlt⟩
  · rcases List.mem_append.mp hc with hc | hc
    · rcases isDigit_or_plus_of_readIndex? hk hc with hdigit | rfl
      · exact ⟨by rintro rfl; exact absurd hdigit (by decide), by rintro rfl; exact absurd hdigit (by decide)⟩
      · exact ⟨by decide, by decide⟩
    · obtain rfl := List.mem_singleton.mp hc
      exact ⟨by decide, by decide⟩
  · rw [hcs]
    exact ⟨after, by simp⟩

theorem readPlaceholder?_of_forgedAt {table : List (List Char)} {ts : List Token}
    (h : ForgedAt table.length ts) (n : ℕ) :
    ∃ t after, readPlaceholder? table ((numberFrom n ts).flatMap Token.text) = some (t, after) := by
  obtain ⟨ds, k, hk, hlt, rest, rfl⟩ := h
  have hcs : (numberFrom n ((ds ++ [closeMark]).map codeToken ++ rest)).flatMap Token.text =
      ds ++ closeMark :: (numberFrom n rest).flatMap Token.text := by
    rw [numberFrom_codeTokens, flatMap_text_codeTokens, List.append_assoc]
    rfl
  rw [hcs]
  exact ⟨_, _, readPlaceholder?_number hk (List.getElem?_eq_getElem hlt) _⟩

/-- `Restored table ts cs`: the text `cs` is what `ts` come back to when the literals of `table` are put back. Up to
the first forged literal this is the text of `ts`; there a literal of the table stands. -/
inductive Restored (table : List (List Char)) : List Token → List Char → Prop where
  | nil : Restored table [] []
  | cons {t : Token} {ts : List Token} {cs : List Char} :
      (t = codeToken openMark → ¬ ForgedAt table.length ts) → Restored table ts cs →
      Restored table (t :: ts) (t.text ++ cs)
  | forged {ts : List Token} {t cs : List Char} : ForgedAt table.length ts → t ∈ table →
      Restored table (codeToken openMark :: ts) (t ++ cs)

theorem restored_numberFrom {table : List (List Char)} {ts : List Token} :
    ∀ {n : ℕ}, ts.filterMap Token.literal? = table.drop n →
      Restored table ts (restore table ((numberFrom n ts).flatMap Token.text)) := by
  induction ts with
  | nil =>
    intro n _
    rw [numberFrom, List.flatMap_nil, restore]
    exact .nil
  | cons t ts ih =>
    intro n ht
    cases t with
    | gap =>
      show Restored table _ (restore table (' ' :: (numberFrom n ts).flatMap Token.text))
      rw [restore_char (by decide)]
      exact .cons (fun h => by cases h) (ih ht)
    | item i =>
      cases i with
      | char c =>
        show Restored table _ (restore table (c :: (numberFrom n ts).flatMap Token.text))
        by_cases hc : c = openMark
        · subst hc
          cases h : readPlaceholder? table ((numberFrom n ts).flatMap Token.text) with
          | none =>
            rw [restore_openMark_none h]
            refine .cons (fun _ hforged => ?_) (ih ht)
            obtain ⟨t, after, hread⟩ := readPlaceholder?_of_forgedAt hforged n
            rw [h] at hread
            cases hread
          | some r =>
            obtain ⟨hforged, hmem⟩ := forgedAt_of_readPlaceholder? h
            rw [restore_openMark h]
            exact .forged hforged hmem
        · rw [restore_char hc]
          exact .cons (fun h => by cases h; exact absurd rfl hc) (ih ht)
      | literal t =>
        obtain ⟨hn, hrest⟩ := getElem?_of_literal?_cons ht
        show Restored table _ (restore table (placeholder n ++ (numberFrom (n + 1) ts).flatMap Token.text))
        rw [restore_placeholder hn]
        exact .cons (fun h => by cases h) (ih hrest)

/-- Where no literal is forged, tokens come back as they are. -/
theorem Restored.eq_of_not_forgedIn {table : List (List Char)} {ts : List Token} {cs : List Char}
    (h : Restored table ts cs) (hf : ¬ ForgedIn table.length ts) : cs = ts.flatMap Token.text := by
  induction h with
  | nil => rfl
  | cons _ _ ih =>
    rw [forgedIn_cons_iff, not_or] at hf
    rw [List.flatMap_cons, ← ih hf.2]
  | forged hforged _ =>
    rw [forgedIn_cons_iff, not_or] at hf
    exact absurd ⟨rfl, hforged⟩ hf.1

/-! ### Blank sources -/

theorem reads_blank {cs : List Char} (h : cs.all isBlank = true) : Reads cs (cs.map fun _ => .gap) := by
  induction cs with
  | nil => exact .nil
  | cons c cs ih =>
    rw [List.all_cons, Bool.and_eq_true] at h
    exact .blank h.1 (ih h.2)

theorem spell_gaps (cs : List Char) (left : Option Char) (gap : Bool) :
    spell left gap (cs.map fun _ => .gap) = [] := by
  induction cs generalizing gap with
  | nil => rw [List.map_nil, spell]
  | cons c cs ih => rw [List.map_cons, spell, ih]

theorem numberFrom_gaps (cs : List Char) (n : Nat) :
    numberFrom n (cs.map fun _ => .gap) = cs.map fun _ => .gap := by
  induction cs with
  | nil => rw [List.map_nil, numberFrom]
  | cons c cs ih =>
    rw [List.map_cons, numberFrom, ih]
    exact fun _ h => Token.noConfusion h

end ModuleBundler.Minify

namespace ModuleBundler

open Minify

/-- A source is minified by its tokens: they are spelled with numbers for the literals, and then the literals are
put back. -/
theorem minifyChars_eq_restore (cs : List Char) :
    minifyChars cs = restore (((pieces cs).map tokenOf).filterMap Token.literal?)
      (spell none false (numberFrom 0 ((pieces cs).map tokenOf))) := by
  unfold minifyChars
  split_ifs with hblank
  · rw [← reads_iff.mp (reads_blank hblank), numberFrom_gaps, spell_gaps, restore]
  · have hleft : collapse .code none false (maskFrom 0 (pieces cs)) =
        spell none false (numberFrom 0 ((pieces cs).map tokenOf)) :=
      collapse_maskFrom (reads_iff.mpr rfl) false fun _ => rfl
    show restore (literals (pieces cs)) (tighten none (collapse .code none false
      (maskFrom 0 (pieces cs)))) = _
    rw [tighten_collapse, hleft, literals_eq]

/-- A source comes back with its literals, but for the forged ones. -/
theorem restored_minifyChars (cs : List Char) :
    Restored (literals (pieces cs)) (settled cs) (minifyChars cs) := by
  rw [minifyChars_eq_restore, spell_eq_flatMap, settle_numberFrom, ← literals_eq]
  refine restored_numberFrom ?_
  rw [settled, literal?_settle, ← literals_eq, List.drop_zero]

/-- **A source that forges no literal** is minified to its items, whatever characters they are. -/
theorem minifyChars_of_not_forged {cs : List Char} (h : ¬ Forged cs) :
    minifyChars cs = spell none false (tokens cs) := by
  rw [(restored_minifyChars cs).eq_of_not_forgedIn h, spell_eq_flatMap]
  rfl

/-- A source in whose code there is no opening mark is minified to its items. -/
theorem minifyChars_of_reads {cs : List Char} {ts : List Token} (hr : Reads cs ts)
    (hu : .item (.char openMark) ∉ ts) : minifyChars cs = spell none false ts := by
  obtain rfl := reads_iff.mp hr
  refine minifyChars_of_not_forged ?_
  rintro ⟨ds, n, -, -, h⟩
  exact hu ((item_mem_settle_iff _ none false).mp (h.subset List.mem_cons_self))

/-- **Minifying spells the items of a source.** Every source has exactly one reading. Where the opening
mark is not among its characters of code, minifying gives its items in order, each literal as it stands
in the source, with one space between two neighbours where there was a gap and they must not stand side
by side, and nothing between any others. -/
theorem minify_eq_spell (source : String) :
    ∃ ts, (∀ us, Reads source.toList us ↔ us = ts) ∧
      (.item (.char openMark) ∉ ts → minify source = String.ofList (spell none false ts)) :=
  ⟨(pieces source.toList).map tokenOf, fun _ => reads_iff,
    fun hu => congrArg String.ofList (minifyChars_of_reads (reads_iff.mpr rfl) hu)⟩

/-- A source with quotes in comments, comment marks in literals, neighbouring literals, and a literal
that is not closed. -/
def mixedSource : String :=
  "let s = 'it\\'s' /* \" */ + +b; // `\nreturn \"//\" `x` / /y/ \"open\\"

theorem minify_eq_spell_mixedSource :
    ∃ ts, Reads mixedSource.toList ts ∧ minify mixedSource = String.ofList (spell none false ts) ∧
      minify mixedSource = "let s='it\\'s'+ +b;return \"//\" `x`/ /y/\"open\\" := by
  obtain ⟨ts, hr, hm⟩ := minify_eq_spell mixedSource
  have hts : Reads mixedSource.toList ts := (hr ts).mpr rfl
  have hmark : .item (.char openMark) ∉ ts := by
    rw [reads_iff.mp hts]
    decide +kernel
  exact ⟨ts, hts, hm hmark, by decide +kernel⟩

end ModuleBundler
