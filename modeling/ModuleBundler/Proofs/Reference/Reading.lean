import ModuleBundler.Proofs.Reference.Pattern
import ModuleBundler.Proofs.Text.Digits
import Mathlib.Data.List.Basic

/-!
# Reading patterns without a search

A pattern is read from left to right by a function that never goes back, if at every place there is one way to go
on only. A run ends where its characters end, because what has to follow it begins with none of them
(`ReadBy.run_seq`); of two patterns, or of a pattern and its absence, only one can be taken (`ReadBy.either_seq`,
`ReadBy.optional_seq`). That a function reads a pattern (`ReadBy`) is then put together part by part.
-/

namespace ModuleBundler

open Text Pattern

/-- A function that gives the group and the rest of a text that begins with a pattern. -/
abbrev Reader := List Char → Option (List Char × List Char)

/-- No text that begins with one of these characters is read. -/
def Reader.Avoids (read : Reader) (holds : Char → Bool) : Prop :=
  ∀ c cs, holds c = true → read (c :: cs) = none

theorem Reader.Avoids.head?_eq {read : Reader} {holds : Char → Bool} (h : read.Avoids holds) {cs : List Char}
    {v : List Char × List Char} (hr : read cs = some v) (c : Char) (hc : cs.head? = some c) : holds c = false := by
  cases cs with
  | nil => cases hc
  | cons c' cs =>
    obtain rfl := Option.some.inj hc
    by_contra hh
    rw [h c' cs ((Bool.not_eq_false _).mp hh)] at hr
    cases hr

theorem Reader.Avoids.bind {read : Reader} {holds : Char → Bool} (h : read.Avoids holds)
    (next : List Char × List Char → Option (List Char × List Char)) :
    Reader.Avoids (fun cs => (read cs).bind next) holds := by
  intro c cs hc
  show (read (c :: cs)).bind next = none
  rw [h c cs hc]
  rfl

/-- Of two ways to go on only one can be taken. -/
theorem orElse_eq_some_iff {α : Type} {a b : Option α} (he : a.isSome = true → b = none) {v : α} :
    (a <|> b) = some v ↔ a = some v ∨ b = some v := by
  cases a with
  | none => simp
  | some w => simp [he rfl]

/-- Reads one character of a class. -/
def readOne (holds : Char → Bool) : Reader
  | c :: cs => if holds c then some ([], cs) else none
  | [] => none

/-- What `p` can take from a cursor on is what `read` takes from the text after the cursor. -/
def ReadBy (p : Pattern) (read : Reader) : Prop :=
  ∀ x found rest, p.Takes x found rest ↔ read x.after = some (found, rest)

namespace ReadBy

variable {p q r : Pattern} {f g : Reader} {holds : Char → Bool} {least : Nat}

theorem congr (h : ReadBy p f) (he : ∀ cs, f cs = g cs) : ReadBy p g := by
  rwa [← funext he]

/-! ### Parts -/

theorem text (word : List Char) :
    ReadBy (.text word) fun cs => (dropWord? word cs).bind fun rest => some ([], rest) := by
  intro x found rest
  simp only [Option.bind_eq_some_iff, dropWord?_eq_some_iff, Option.some.injEq, Prod.mk.injEq]
  constructor
  · rintro ⟨y, h, rfl⟩
    cases h with
    | text => exact ⟨_, rfl, rfl, rfl⟩
  · rintro ⟨rest, hx, rfl, rfl⟩
    obtain ⟨before, after⟩ := x
    obtain rfl : after = word ++ rest := hx
    exact ⟨_, .text, rfl⟩

theorem one (holds : Char → Bool) : ReadBy (.one holds) (readOne holds) := by
  intro x found rest
  constructor
  · rintro ⟨y, h, rfl⟩
    cases h with
    | one hc => simp [readOne, hc]
  · intro h
    obtain ⟨before, after⟩ := x
    cases after with
    | nil => cases h
    | cons c cs =>
      simp only [readOne] at h
      split_ifs at h with hc
      obtain ⟨rfl, rfl⟩ := Prod.mk.inj (Option.some.inj h)
      exact ⟨_, .one hc, rfl⟩

/-- One part after the other. -/
theorem seq (hp : ReadBy p f) (hq : ReadBy q g) : ReadBy (.seq p q) fun cs =>
    (f cs).bind fun (found, cs) => (g cs).map fun (found', rest) => (found ++ found', rest) := by
  intro x found rest
  simp only [Option.bind_eq_some_iff, Option.map_eq_some_iff, Prod.exists, Prod.mk.injEq]
  constructor
  · rintro ⟨z, h, rfl⟩
    cases h with
    | @seq _ _ _ y _ found found' h h' =>
      exact ⟨found, y.after, (hp x found _).mp ⟨y, h, rfl⟩, found', z.after,
        (hq y found' _).mp ⟨z, h', rfl⟩, rfl, rfl⟩
  · rintro ⟨found, cs, hf, found', rest, hg, rfl, rfl⟩
    obtain ⟨y, hy, rfl⟩ := (hp x found _).mpr hf
    obtain ⟨z, hz, rfl⟩ := (hq y found' _).mpr hg
    exact ⟨z, .seq hy hz, rfl⟩

theorem text_seq (word : List Char) (hq : ReadBy q g) :
    ReadBy (.seq (.text word) q) fun cs => (dropWord? word cs).bind g := by
  intro x found rest
  simp only [takes_text_seq_iff, hq _ _ _, Option.bind_eq_some_iff, dropWord?_eq_some_iff]

theorem assoc (h : ReadBy (.seq p (.seq q r)) f) : ReadBy (.seq (.seq p q) r) f :=
  fun x found rest => takes_seq_assoc.trans (h x found rest)

/-! ### Choices -/

theorem either_seq (hp : ReadBy (.seq p r) f) (hq : ReadBy (.seq q r) g)
    (he : ∀ cs, (f cs).isSome = true → g cs = none) :
    ReadBy (.seq (.either p q) r) fun cs => f cs <|> g cs := by
  intro x found rest
  rw [takes_either_seq_iff, hp, hq, orElse_eq_some_iff (he x.after)]

/-- A part may be left out, if what comes after it cannot be read in its place. -/
theorem optional_seq (hp : ReadBy (.seq p q) f) (hq : ReadBy q g) (he : ∀ cs, (f cs).isSome = true → g cs = none) :
    ReadBy (.seq (.optional p) q) fun cs => f cs <|> g cs := by
  intro x found rest
  rw [takes_optional_seq_iff, hp, hq, orElse_eq_some_iff (he x.after)]

/-! ### Runs -/

/-- A run before what `g` reads, if `f` finds the end of the run. -/
theorem run_seq_of_iff (hq : ReadBy q g) (hf : ∀ cs v, f cs = some v ↔
      ∃ s cs', cs = s ++ cs' ∧ least ≤ s.length ∧ s.all holds = true ∧ g cs' = some v) :
    ReadBy (.seq (.run least holds) q) f := by
  intro x found rest
  simp only [takes_run_seq_iff, hq _ _ _, hf]

/-- A run ends where a character follows that is none of the run. -/
theorem run_eq_of_avoids (hs : Reader.Avoids g holds) {s cs : List Char} {v : List Char × List Char}
    (ha : s.all holds = true) (hg : g cs = some v) :
    (s ++ cs).takeWhile holds = s ∧ (s ++ cs).dropWhile holds = cs := by
  have hstop := hs.head?_eq hg
  have ha := List.all_eq_true.mp ha
  exact ⟨takeWhile_append_of_stop ha hstop, dropWhile_append_of_stop ha hstop⟩

theorem run_seq (hq : ReadBy q g) (hs : Reader.Avoids g holds) : ReadBy (.seq (.run least holds) q) fun cs =>
    if least ≤ (cs.takeWhile holds).length then g (cs.dropWhile holds) else none := by
  refine hq.run_seq_of_iff fun cs v => ?_
  rw [Option.ite_none_right_eq_some]
  constructor
  · rintro ⟨hl, hg⟩
    exact ⟨_, _, List.takeWhile_append_dropWhile.symm, hl, List.all_takeWhile, hg⟩
  · rintro ⟨s, cs', rfl, hl, ha, hg⟩
    obtain ⟨htake, hdrop⟩ := run_eq_of_avoids hs ha hg
    rw [htake, hdrop]
    exact ⟨hl, hg⟩

/-- A run whose text is told. -/
theorem group_run_seq (hq : ReadBy q g) (hs : Reader.Avoids g holds) :
    ReadBy (.seq (.group (.run least holds)) q) fun cs =>
      if least ≤ (cs.takeWhile holds).length then
        (g (cs.dropWhile holds)).map fun (found, rest) => (cs.takeWhile holds ++ found, rest)
      else none := by
  intro x found rest
  simp only [takes_group_run_seq_iff, hq _ _ _, Option.ite_none_right_eq_some, Option.map_eq_some_iff, Prod.exists,
    Prod.mk.injEq]
  constructor
  · rintro ⟨s, cs, found', hx, hl, ha, hg, rfl⟩
    obtain ⟨htake, hdrop⟩ := run_eq_of_avoids hs ha hg
    rw [hx, htake, hdrop]
    exact ⟨hl, found', rest, hg, rfl, rfl⟩
  · rintro ⟨hl, found', rest, hg, rfl, rfl⟩
    exact ⟨_, _, found', List.takeWhile_append_dropWhile.symm, hl, List.all_takeWhile, hg, rfl⟩

/-! ### Blanks -/

theorem blanks_seq (hq : ReadBy q g) (hs : Reader.Avoids g isBlank) :
    ReadBy (.seq blanks q) fun cs => g (trimStart cs) :=
  (hq.run_seq hs).congr fun _ => if_pos (Nat.zero_le _)

theorem someBlanks_seq (hq : ReadBy q g) (hs : Reader.Avoids g isBlank) :
    ReadBy (.seq someBlanks q) fun cs => (afterBlanks? cs).bind g := by
  refine (hq.run_seq hs).congr fun cs => ?_
  unfold afterBlanks? trimStart
  cases cs with
  | nil => rfl
  | cons c cs => cases hc : isBlank c <;> simp [hc]

end ReadBy

end ModuleBundler
