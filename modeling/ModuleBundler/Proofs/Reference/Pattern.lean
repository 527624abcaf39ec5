import ModuleBundler.Reference.Form

/-!
# Patterns

A form of reference is a pattern over characters, and a pattern says nothing about how it is looked for: it reads
from one cursor to another in whatever way its parts can be put together (`Pattern.Reads`), and only the text in
its group is told of what was read. A run may be as long as it likes, so a pattern can in general be read in
several ways.

`ReferenceKind.pattern` is the pattern of each of the five forms.
-/

namespace ModuleBundler

open Text

/-! ### Cursors -/

/-- A place in a text: what is before it, the nearest character first, and what is after it. -/
structure Cursor where
  before : List Char
  after : List Char

namespace Cursor

/-- Whether a word begins or ends at a cursor. -/
def AtBoundary (x : Cursor) : Prop := x.before.head?.any isWordChar ≠ x.after.head?.any isWordChar

/-- The place in `source` that has `i` characters before it. -/
def into (source : List Char) (i : Nat) : Cursor := ⟨(source.take i).reverse, source.drop i⟩

end Cursor

/-! ### Patterns -/

/-- A pattern over characters. -/
inductive Pattern where
  /-- These characters. -/
  | text (word : List Char)
  /-- One character of a class. -/
  | one (holds : Char → Bool)
  /-- Characters of a class, at least so many of them. -/
  | run (least : Nat) (holds : Char → Bool)
  /-- The begin or the end of a word, which takes no character. -/
  | boundary
  /-- A part whose text is told. -/
  | group (p : Pattern)
  | optional (p : Pattern)
  | either (p q : Pattern)
  | seq (p q : Pattern)

namespace Pattern

/-- One pattern after the other. -/
def inOrder : List Pattern → Pattern
  | [] => .text []
  | [p] => p
  | p :: ps => .seq p (inOrder ps)

/-- `Reads p x found y`: the pattern `p` can be read from `x` to `y`, with `found` in its group. -/
inductive Reads : Pattern → Cursor → List Char → Cursor → Prop where
  | text {word before after : List Char} :
      Reads (.text word) ⟨before, word ++ after⟩ [] ⟨word.reverse ++ before, after⟩
  | one {holds : Char → Bool} {c : Char} {before after : List Char} : holds c = true →
      Reads (.one holds) ⟨before, c :: after⟩ [] ⟨c :: before, after⟩
  | run {least : Nat} {holds : Char → Bool} {s before after : List Char} : least ≤ s.length →
      s.all holds = true → Reads (.run least holds) ⟨before, s ++ after⟩ [] ⟨s.reverse ++ before, after⟩
  | boundary {x : Cursor} : x.AtBoundary → Reads .boundary x [] x
  | group {p : Pattern} {s found before after : List Char} :
      Reads p ⟨before, s ++ after⟩ found ⟨s.reverse ++ before, after⟩ →
      Reads (.group p) ⟨before, s ++ after⟩ s ⟨s.reverse ++ before, after⟩
  | absent {p : Pattern} {x : Cursor} : Reads (.optional p) x [] x
  | present {p : Pattern} {x y : Cursor} {found : List Char} : Reads p x found y →
      Reads (.optional p) x found y
  | left {p q : Pattern} {x y : Cursor} {found : List Char} : Reads p x found y →
      Reads (.either p q) x found y
  | right {p q : Pattern} {x y : Cursor} {found : List Char} : Reads q x found y →
      Reads (.either p q) x found y
  | seq {p q : Pattern} {x y z : Cursor} {found found' : List Char} : Reads p x found y → Reads q y found' z →
      Reads (.seq p q) x (found ++ found') z

/-- What a pattern reads is the text between two cursors. -/
theorem Reads.span {p : Pattern} {x y : Cursor} {found : List Char} (h : p.Reads x found y) :
    ∃ s, x.after = s ++ y.after ∧ y.before = s.reverse ++ x.before := by
  induction h with
  | text => exact ⟨_, rfl, rfl⟩
  | one _ => exact ⟨[_], rfl, rfl⟩
  | run _ _ => exact ⟨_, rfl, rfl⟩
  | boundary _ => exact ⟨[], rfl, rfl⟩
  | group _ _ => exact ⟨_, rfl, rfl⟩
  | absent => exact ⟨[], rfl, rfl⟩
  | present _ ih => exact ih
  | left _ ih => exact ih
  | right _ ih => exact ih
  | seq _ _ ih ih' =>
    obtain ⟨s, hs, hb⟩ := ih
    obtain ⟨t, ht, hb'⟩ := ih'
    exact ⟨s ++ t, by rw [hs, ht, List.append_assoc], by rw [hb', hb]; simp⟩

/-! ### Taking a pattern from a text -/

section

variable {p q r : Pattern} {x : Cursor} {found rest word : List Char} {holds : Char → Bool} {n : Nat}

/-- `p.Takes x found rest`: the pattern can be read from `x`, and then `rest` is what is left of the text. -/
def Takes (p : Pattern) (x : Cursor) (found rest : List Char) : Prop := ∃ y, p.Reads x found y ∧ y.after = rest

theorem takes_text_seq_iff : (seq (.text word) q).Takes x found rest ↔
    ∃ cs, x.after = word ++ cs ∧ q.Takes ⟨word.reverse ++ x.before, cs⟩ found rest := by
  constructor
  · rintro ⟨z, h, rfl⟩
    cases h with
    | seq h hz =>
      cases h with
      | text => exact ⟨_, rfl, z, hz, rfl⟩
  · rintro ⟨cs, hx, z, hz, rfl⟩
    obtain ⟨before, after⟩ := x
    obtain rfl : after = word ++ cs := hx
    exact ⟨z, .seq .text hz, rfl⟩

theorem takes_run_seq_iff : (seq (.run n holds) q).Takes x found rest ↔
    ∃ s cs, x.after = s ++ cs ∧ n ≤ s.length ∧ s.all holds = true ∧
      q.Takes ⟨s.reverse ++ x.before, cs⟩ found rest := by
  constructor
  · rintro ⟨z, h, rfl⟩
    cases h with
    | seq h hz =>
      cases h with
      | run hl ha => exact ⟨_, _, rfl, hl, ha, z, hz, rfl⟩
  · rintro ⟨s, cs, hx, hl, ha, z, hz, rfl⟩
    obtain ⟨before, after⟩ := x
    obtain rfl : after = s ++ cs := hx
    exact ⟨z, .seq (.run hl ha) hz, rfl⟩

theorem takes_boundary_seq_iff : (seq .boundary q).Takes x found rest ↔ x.AtBoundary ∧ q.Takes x found rest := by
  constructor
  · rintro ⟨z, h, rfl⟩
    cases h with
    | seq h hz =>
      cases h with
      | boundary hb => exact ⟨hb, z, hz, rfl⟩
  · rintro ⟨hb, z, hz, rfl⟩
    exact ⟨z, List.nil_append found ▸ .seq (.boundary hb) hz, rfl⟩

/-- A group of a run is a stretch of characters of the run. -/
theorem reads_group_run_iff {y : Cursor} : (group (.run n holds)).Reads x found y ↔
    x.after = found ++ y.after ∧ y.before = found.reverse ++ x.before ∧
      n ≤ found.length ∧ found.all holds = true := by
  constructor
  · intro h
    cases h with
    | @group _ _ _ before after h =>
      refine ⟨rfl, rfl, ?_⟩
      generalize hx : (⟨before, found ++ after⟩ : Cursor) = x at h
      generalize hy : (⟨found.reverse ++ before, after⟩ : Cursor) = y at h
      cases h with
      | run hl ha =>
        obtain ⟨rfl, hs⟩ := Cursor.mk.inj hx
        obtain ⟨-, rfl⟩ := Cursor.mk.inj hy
        obtain rfl := List.append_cancel_right hs
        exact ⟨hl, ha⟩
  · rintro ⟨hx, hy, hl, ha⟩
    obtain ⟨before, after⟩ := x
    obtain ⟨before', after'⟩ := y
    obtain rfl : after = found ++ after' := hx
    obtain rfl : before' = found.reverse ++ before := hy
    exact .group (.run hl ha)

theorem takes_group_run_seq_iff : (seq (.group (.run n holds)) q).Takes x found rest ↔
    ∃ s cs found', x.after = s ++ cs ∧ n ≤ s.length ∧ s.all holds = true ∧
      q.Takes ⟨s.reverse ++ x.before, cs⟩ found' rest ∧ s ++ found' = found := by
  constructor
  · rintro ⟨z, h, rfl⟩
    cases h with
    | @seq _ _ _ y _ s found' h hz =>
      obtain ⟨before', after'⟩ := y
      obtain ⟨hx, hy, hl, ha⟩ := reads_group_run_iff.mp h
      obtain rfl : before' = s.reverse ++ x.before := hy
      exact ⟨s, after', found', hx, hl, ha, ⟨z, hz, rfl⟩, rfl⟩
  · rintro ⟨s, cs, found', hx, hl, ha, ⟨z, hz, rfl⟩, rfl⟩
    exact ⟨z, .seq (reads_group_run_iff.mpr ⟨hx, rfl, hl, ha⟩) hz, rfl⟩

theorem takes_either_seq_iff : (seq (.either p q) r).Takes x found rest ↔
    (seq p r).Takes x found rest ∨ (seq q r).Takes x found rest := by
  constructor
  · rintro ⟨z, h, rfl⟩
    cases h with
    | seq h hr =>
      cases h with
      | left h => exact .inl ⟨z, .seq h hr, rfl⟩
      | right h => exact .inr ⟨z, .seq h hr, rfl⟩
  · rintro (⟨z, h, rfl⟩ | ⟨z, h, rfl⟩)
    · cases h with
      | seq h hr => exact ⟨z, .seq (.left h) hr, rfl⟩
    · cases h with
      | seq h hr => exact ⟨z, .seq (.right h) hr, rfl⟩

theorem takes_optional_seq_iff : (seq (.optional p) q).Takes x found rest ↔
    (seq p q).Takes x found rest ∨ q.Takes x found rest := by
  constructor
  · rintro ⟨z, h, rfl⟩
    cases h with
    | seq h hr =>
      cases h with
      | present h => exact .inl ⟨z, .seq h hr, rfl⟩
      | absent => exact .inr ⟨z, hr, rfl⟩
  · rintro (⟨z, h, rfl⟩ | ⟨z, h, rfl⟩)
    · cases h with
      | seq h hr => exact ⟨z, .seq (.present h) hr, rfl⟩
    · exact ⟨z, List.nil_append found ▸ .seq .absent h, rfl⟩

/-- Parts can be put together in another order. -/
theorem takes_seq_assoc : (seq (.seq p q) r).Takes x found rest ↔ (seq p (.seq q r)).Takes x found rest := by
  constructor
  · rintro ⟨z, hz, rfl⟩
    cases hz with
    | seq hpq hr =>
      cases hpq with
      | seq hp hq => exact ⟨z, by rw [List.append_assoc]; exact .seq hp (.seq hq hr), rfl⟩
  · rintro ⟨z, hz, rfl⟩
    cases hz with
    | seq hp hqr =>
      cases hqr with
      | seq hq hr => exact ⟨z, by rw [← List.append_assoc]; exact .seq (.seq hp hq) hr, rfl⟩

end

/-! ### How much is taken -/

/-- The number of characters that a pattern takes at least. -/
def least : Pattern → Nat
  | .text word => word.length
  | .one _ => 1
  | .run n _ => n
  | .boundary => 0
  | .group p => p.least
  | .optional _ => 0
  | .either p q => min p.least q.least
  | .seq p q => p.least + q.least

theorem Reads.least_le {p : Pattern} {x y : Cursor} {found : List Char} (h : p.Reads x found y) :
    p.least + y.after.length ≤ x.after.length := by
  induction h with
  | text => simp [least]
  | one _ => simp only [least, List.length_cons]; omega
  | run hl _ => simp only [least, List.length_append]; omega
  | boundary _ => simp [least]
  | group _ ih => exact ih
  | absent => simp [least]
  | present _ ih => simp only [least]; omega
  | left _ ih => simp only [least]; omega
  | right _ ih => simp only [least]; omega
  | seq _ _ ih ih' => simp only [least]; omega

/-! ### What is told -/

/-- Whether a pattern tells no text. -/
def isSilent : Pattern → Bool
  | .group _ => false
  | .optional p => p.isSilent
  | .either p q => p.isSilent && q.isSilent
  | .seq p q => p.isSilent && q.isSilent
  | _ => true

theorem Reads.eq_nil_of_isSilent {p : Pattern} {x y : Cursor} {found : List Char} (h : p.Reads x found y)
    (hp : p.isSilent = true) : found = [] := by
  induction h with
  | group _ _ => cases hp
  | present _ ih => exact ih hp
  | left _ ih => exact ih (Bool.and_eq_true_iff.mp hp).1
  | right _ ih => exact ih (Bool.and_eq_true_iff.mp hp).2
  | seq _ _ ih ih' =>
    obtain ⟨hp, hq⟩ := Bool.and_eq_true_iff.mp hp
    rw [ih hp, ih' hq, List.append_nil]
  | _ => rfl

/-- The part of a pattern whose text is told, if the parts around it are silent. -/
def speaker : Pattern → Pattern
  | .seq p q => if p.isSilent then q.speaker else if q.isSilent then p.speaker else .seq p q
  | p => p

theorem Reads.speaker {p : Pattern} {x y : Cursor} {found : List Char} (h : p.Reads x found y) :
    ∃ x' y', p.speaker.Reads x' found y' := by
  induction p generalizing x y found with
  | seq p q ih ih' =>
    cases h with
    | seq h h' =>
      rw [Pattern.speaker]
      split
      next hp =>
        rw [h.eq_nil_of_isSilent hp]
        exact ih' h'
      next =>
        split
        next hq =>
          rw [h'.eq_nil_of_isSilent hq, List.append_nil]
          exact ih h
        next => exact ⟨_, _, .seq h h'⟩
  | _ => exact ⟨_, _, h⟩

/-! ### The forms of a reference -/

/-- Any number of blanks: `\s*`. -/
def blanks : Pattern := .run 0 isBlank

/-- At least one blank: `\s+`. -/
def someBlanks : Pattern := .run 1 isBlank

/-- A specifier between two of these quotes: `['"]([^'"\n]+)['"]`. -/
def inQuotes (quotes : List Char) : Pattern :=
  inOrder [.one quotes.contains, .group (.run 1 fun c => !quotes.contains c && c != '\n'), .one quotes.contains]

/-- A call of `keyword` with a quoted specifier: ``\bkeyword\s*\(\s*['"`]([^'"`\n]+)['"`]\s*\)``. -/
def call (keyword : String) : Pattern :=
  inOrder [.boundary, .text keyword.toList, blanks, .text ['('], blanks, inQuotes callQuotes, blanks, .text [')']]

end Pattern

open Pattern in
/-- The pattern of a form:
* ``\brequire\s*\(\s*['"`]([^'"`\n]+)['"`]\s*\)``
* `\bimport\s+[\w$*{}\s,]+?\s*\bfrom\s*['"]([^'"\n]+)['"]`
* `\bimport\s*['"]([^'"\n]+)['"]`
* ``\bimport\s*\(\s*['"`]([^'"`\n]+)['"`]\s*\)``
* `\bexport\s+(?:type\s+)?(?:\*(?:\s+as\s+[\w$]+)?|\{[^}]*\})\s*from\s*['"]([^'"\n]+)['"]` -/
def ReferenceKind.pattern : ReferenceKind → Pattern
  | .require => call "require"
  | .importFrom => inOrder [.boundary, .text "import".toList, someBlanks, .run 1 isClauseChar, blanks, .boundary,
      .text "from".toList, blanks, inQuotes declarationQuotes]
  | .sideEffectImport => inOrder [.boundary, .text "import".toList, blanks, inQuotes declarationQuotes]
  | .dynamicImport => call "import"
  | .reExport => inOrder [.boundary, .text "export".toList, someBlanks,
      .optional (inOrder [.text "type".toList, someBlanks]),
      .either
        (inOrder [.text ['*'], .optional (inOrder [someBlanks, .text "as".toList, someBlanks, .run 1 isNameChar])])
        (inOrder [.text ['\x7b'], .run 0 (· != '\x7d'), .text ['\x7d']]),
      blanks, .text "from".toList, blanks, inQuotes declarationQuotes]

end ModuleBundler
