import ModuleBundler.Json.Print
import Mathlib.Tactic.SplitIfs

/-!
# String literals are read back

A literal that was written for a string spells that string. Most escapes spell their character in one
piece; a control character without an escape of its own is spelled by a unit of UTF-16.
-/

namespace ModuleBundler.Json

open Text

theorem hexNumber?_control {n : Nat} (h : n < 0x20) :
    hexNumber? ['0', '0', hexDigit (n / 16), hexDigit (n % 16)] = some n := by
  have h₁ := hexValue?_hexDigit (n / 16) (by omega)
  have h₂ := hexValue?_hexDigit (n % 16) (by omega)
  have h₃ : n / 16 * 16 + n % 16 = n := by omega
  have h₀ : hexValue? '0' = some 0 := by decide
  simp [hexNumber?, h₀, h₁, h₂, h₃]

theorem textOfUnits_unit16 {n : Nat} (h : n < 0x20) (us : List LiteralUnit) :
    textOfUnits (.unit16 n :: us) = (textOfUnits us).map (Char.ofNat n :: ·) := by
  have hl : isLowSurrogate n = false := by simp [isLowSurrogate]; omega
  have hh : isHighSurrogate n = false := by simp [isHighSurrogate]; omega
  rw [textOfUnits.eq_def]
  simp only [hl, hh, Bool.false_eq_true, if_false]

/-- A character is written as an escape of one letter, as a unit of UTF-16, or as itself. -/
theorem escapeChar_cases (c : Char) :
    (∃ e, e ≠ 'u' ∧ shortEscape? e = some c ∧ escapeChar c = ['\\', e]) ∨
    (c.toNat < 0x20 ∧
      escapeChar c = ['\\', 'u', '0', '0', hexDigit (c.toNat / 16), hexDigit (c.toNat % 16)]) ∨
    (c ≠ '\x22' ∧ c ≠ '\\' ∧ ¬ c.toNat < 0x20 ∧ escapeChar c = [c]) := by
  unfold escapeChar
  split_ifs with h₁ h₂ h₃ h₄ h₅ h₆ h₇ h₈
  · exact .inl ⟨_, by decide, by rw [h₁]; decide, rfl⟩
  · exact .inl ⟨_, by decide, by rw [h₂]; decide, rfl⟩
  · exact .inl ⟨_, by decide, by rw [h₃]; decide, rfl⟩
  · exact .inl ⟨_, by decide, by rw [h₄]; decide, rfl⟩
  · exact .inl ⟨_, by decide, by rw [h₅]; decide, rfl⟩
  · exact .inl ⟨_, by decide, by rw [h₆]; decide, rfl⟩
  · exact .inl ⟨_, by decide, by rw [h₇]; decide, rfl⟩
  · exact .inr (.inl ⟨h₈, rfl⟩)
  · exact .inr (.inr ⟨h₁, h₂, h₈, rfl⟩)

/-- What stands in a literal for one character is read as one piece, which spells the character. -/
theorem readUnits_escapeChar (c : Char) :
    ∃ u, (∀ rest, readUnits (escapeChar c ++ rest) = (readUnits rest).map fun p => (u :: p.1, p.2)) ∧
      ∀ us, textOfUnits (u :: us) = (textOfUnits us).map (c :: ·) := by
  rcases escapeChar_cases c with ⟨e, hu, he, hc⟩ | ⟨hn, hc⟩ | ⟨hq, hb, hn, hc⟩
  · refine ⟨.char c, fun rest => ?_, fun us => by rw [textOfUnits]⟩
    rw [hc, List.cons_append, List.singleton_append, readUnits]
    · cases h : readUnits rest <;> simp [he]
    · exact fun _ _ _ _ _ h _ => hu h
  · refine ⟨.unit16 c.toNat, fun rest => ?_, fun us => ?_⟩
    · rw [hc]
      simp only [List.cons_append, List.nil_append]
      rw [readUnits, hexNumber?_control hn]
      cases h : readUnits rest <;> simp
    · rw [textOfUnits_unit16 hn, Char.ofNat_toNat]
  · refine ⟨.char c, fun rest => ?_, fun us => by rw [textOfUnits]⟩
    rw [hc, List.singleton_append, readUnits, if_neg hq, if_neg (not_or.mpr ⟨hn, hb⟩)]
    · cases h : readUnits rest <;> simp
    · exact fun _ _ _ _ _ h _ => hb h
    · exact fun _ _ h _ => hb h

theorem readUnits_escaped (s rest : List Char) :
    ∃ us, readUnits (s.flatMap escapeChar ++ '\x22' :: rest) = some (us, rest) ∧
      textOfUnits us = some s := by
  induction s with
  | nil => exact ⟨[], by simp [readUnits], rfl⟩
  | cons c s ih =>
    obtain ⟨us, hr, ht⟩ := ih
    obtain ⟨u, hread, htext⟩ := readUnits_escapeChar c
    refine ⟨u :: us, ?_, ?_⟩
    · rw [List.flatMap_cons, List.append_assoc, hread, hr]
      rfl
    · rw [htext, ht]
      rfl

theorem readUnits_quote (rest : List Char) : readUnits ('\x22' :: rest) = some ([], rest) := by
  simp [readUnits]

/-- A string value is read back from what is written for it. -/
theorem readLiteral_stringChars (s : Option String) (rest : List Char) :
    ∃ body, stringChars s = '\x22' :: body ∧ readLiteral (body ++ rest) = some (s, rest) := by
  cases s with
  | none =>
    have hread : readUnits ("\\ud800\"".toList ++ rest) = some ([.unit16 0xd800], rest) := by
      have hchars : "\\ud800\"".toList = ['\\', 'u', 'd', '8', '0', '0', '\x22'] := by decide
      have hunit : hexNumber? ['d', '8', '0', '0'] = some 0xd800 := by decide
      rw [hchars]
      simp only [List.cons_append, List.nil_append]
      rw [readUnits, hunit, readUnits_quote]
      rfl
    refine ⟨"\\ud800\"".toList, by decide, ?_⟩
    rw [readLiteral, hread]
    rfl
  | some s =>
    obtain ⟨us, hr, ht⟩ := readUnits_escaped s.toList rest
    refine ⟨s.toList.flatMap escapeChar ++ ['\x22'], rfl, ?_⟩
    rw [List.append_assoc, List.singleton_append, readLiteral, hr]
    simp only [Option.map_some, ht, String.ofList_toList]

end ModuleBundler.Json
