import ModuleBundler.Json.Parse
import ModuleBundler.Json.Print
import ModuleBundler.Proofs.Text.Digits

/-!
# Numbers are read back

A number ends where no digit, point or exponent follows. A number that was written is read back, if what
follows it lets it end.
-/

namespace ModuleBundler.Json

open Text

/-- Whether `c` may be the first character of a number. -/
def BeginsNumber (c : Char) : Prop := c.isDigit = true ∨ c = '-'

instance (c : Char) : Decidable (BeginsNumber c) := inferInstanceAs (Decidable (_ ∨ _))

theorem BeginsNumber.ne {c d : Char} (hc : BeginsNumber c) (hd : ¬ BeginsNumber d) : c ≠ d := by
  rintro rfl
  exact hd hc

/-- Whether a number that stands before `c` has ended. -/
def EndsBefore (c : Char) : Prop := c.isDigit = false ∧ c ≠ '.' ∧ c ≠ 'e' ∧ c ≠ 'E'

instance (c : Char) : Decidable (EndsBefore c) := inferInstanceAs (Decidable (_ ∧ _))

/-- Whether a number may end before `rest`. -/
def EndsNumber (rest : List Char) : Prop := ∀ c, rest.head? = some c → EndsBefore c

theorem endsNumber_nil : EndsNumber [] := fun _ h => by cases h

theorem endsNumber_cons {c : Char} (h : EndsBefore c) (rest : List Char) : EndsNumber (c :: rest) := by
  intro d hd
  exact Option.some.inj hd ▸ h

/-! ### Digits -/

theorem spanDigits_toString (n : Nat) {rest : List Char}
    (h : ∀ c, rest.head? = some c → c.isDigit = false) :
    spanDigits ((toString n).toList ++ rest) = ((toString n).toList, rest) := by
  have hd : ∀ c ∈ (toString n).toList, c.isDigit = true := fun c => isDigit_of_mem_toString
  rw [spanDigits, takeWhile_append_of_stop hd h, dropWhile_append_of_stop hd h]

/-- The digits of a number are no zero before another digit. -/
theorem leadingDigit_toString (n : Nat) :
    ¬ ((toString n).toList.isEmpty = true ∨
      (toString n).toList.head? = some '0' ∧ (toString n).toList.length ≠ 1) := by
  rintro (h | ⟨h, hl⟩)
  · exact toList_toString_ne_nil n (List.isEmpty_iff.mp h)
  · obtain rfl := eq_zero_of_head?_toString h
    exact hl (by decide)

theorem toString_negSucc (n : Nat) :
    (toString (Int.negSucc n)).toList = '-' :: (toString (n + 1)).toList := by
  have h : toString (Int.negSucc n) = "-" ++ toString (n + 1) := rfl
  rw [h, String.toList_append]
  rfl

theorem exists_digit_cons (n : Nat) :
    ∃ d ds, (toString n).toList = d :: ds ∧ d.isDigit = true := by
  obtain ⟨d, ds, h⟩ := List.exists_cons_of_ne_nil (toList_toString_ne_nil n)
  exact ⟨d, ds, h, isDigit_of_mem_toString (n := n) (h ▸ List.mem_cons_self)⟩

/-! ### Fractions and exponents -/

theorem readFraction_end {rest : List Char} (h : rest.head? ≠ some '.') :
    readFraction rest = some ([], rest) := by
  rw [readFraction]
  rintro rest' rfl
  exact h rfl

theorem readExponent_end {rest : List Char} (h : EndsNumber rest) :
    readExponent rest = some (none, rest) := by
  cases rest with
  | nil => rfl
  | cons c rest =>
    obtain ⟨-, -, he, hE⟩ := h c rfl
    simp [readExponent, he, hE]

theorem readExponent_toString (e : Int) {rest : List Char} (h : EndsNumber rest) :
    readExponent ('e' :: ((toString e).toList ++ rest)) = some (some e, rest) := by
  have hspan : ∀ n : Nat, spanDigits ((toString n).toList ++ rest) = ((toString n).toList, rest) :=
    fun n => spanDigits_toString n fun c hc => (h c hc).1
  have hne : ∀ n : Nat, (toString n).toList.isEmpty = false :=
    fun n => List.isEmpty_eq_false_iff.mpr (toList_toString_ne_nil n)
  cases e with
  | ofNat n =>
    obtain ⟨d, ds, hd, hdigit⟩ := exists_digit_cons n
    have hminus : d ≠ '-' := by rintro rfl; exact absurd hdigit (by decide)
    have hplus : d ≠ '+' := by rintro rfl; exact absurd hdigit (by decide)
    have hread := hspan n
    have hvalue := digitsValue_toString n
    have hchars : (toString (Int.ofNat n)).toList = d :: ds := hd
    rw [hd, List.cons_append] at hread
    rw [hd] at hvalue
    rw [hchars, List.cons_append]
    simp [readExponent, hminus, hplus, hread, hvalue]
  | negSucc n =>
    rw [toString_negSucc, List.cons_append]
    simp only [readExponent, true_or, if_true, hspan, hne, digitsValue_toString]
    rfl

/-! ### Numbers -/

theorem readMagnitude_whole {negative : Bool} {m : Nat} {rest : List Char} (hm : negative = true → m ≠ 0)
    (h : EndsNumber rest) :
    readMagnitude negative ((toString m).toList ++ rest) =
      some (.whole (if negative then -m else m), rest) := by
  have hspan : spanDigits ((toString m).toList ++ rest) = ((toString m).toList, rest) :=
    spanDigits_toString m fun c hc => (h c hc).1
  have hz : ¬ (negative = true ∧ (m : Int) = 0) := fun ⟨hn, h⟩ => hm hn (by omega)
  simp only [readMagnitude, hspan, if_neg (leadingDigit_toString m),
    readFraction_end fun e => (h _ e).2.1 rfl, readExponent_end h, digitsValue_toString, List.append_nil,
    Option.bind_eq_bind, Option.pure_def, Option.bind_some]
  rw [if_pos ⟨rfl, rfl, hz⟩]

theorem readMagnitude_decimal (negative : Bool) (m : Nat) (e : Int) {rest : List Char} (h : EndsNumber rest) :
    readMagnitude negative ((toString m).toList ++ 'e' :: ((toString e).toList ++ rest)) =
      some (.decimal (if negative then -m else m) e, rest) := by
  have hspan : spanDigits ((toString m).toList ++ 'e' :: ((toString e).toList ++ rest)) =
      ((toString m).toList, 'e' :: ((toString e).toList ++ rest)) :=
    spanDigits_toString m fun c hc => by cases hc; decide
  have hfraction : readFraction ('e' :: ((toString e).toList ++ rest)) =
      some ([], 'e' :: ((toString e).toList ++ rest)) := readFraction_end (by simp)
  simp only [readMagnitude, hspan, if_neg (leadingDigit_toString m), hfraction,
    readExponent_toString e h, digitsValue_toString, List.append_nil, Option.bind_eq_bind,
    Option.pure_def, Option.bind_some]
  simp

theorem readNumber_minus (rest : List Char) : readNumber ('-' :: rest) = readMagnitude true rest := rfl

theorem readNumber_digit (n : Nat) (rest : List Char) :
    readNumber ((toString n).toList ++ rest) = readMagnitude false ((toString n).toList ++ rest) := by
  obtain ⟨d, ds, hd, hdigit⟩ := exists_digit_cons n
  rw [hd, List.cons_append, readNumber]
  rintro rest' h
  cases h
  exact absurd hdigit (by decide)

/-- A number is read back from what is written for it. -/
theorem readNumber_numberChars (n : JsonNumber) {rest : List Char} (h : EndsNumber rest) :
    readNumber (numberChars n ++ rest) = some (n, rest) := by
  cases n with
  | whole n =>
    cases n with
    | ofNat n => exact (readNumber_digit n rest).trans (readMagnitude_whole (by simp) h)
    | negSucc n =>
      rw [numberChars, toString_negSucc, List.cons_append, readNumber_minus,
        readMagnitude_whole (fun _ => Nat.succ_ne_zero n) h]
      rfl
  | decimal m e =>
    rw [numberChars, List.append_assoc, List.cons_append]
    cases m with
    | ofNat m => exact (readNumber_digit m _).trans (readMagnitude_decimal false m e h)
    | negSucc m =>
      rw [toString_negSucc, List.cons_append, readNumber_minus, readMagnitude_decimal true (m + 1) e h]
      rfl

end ModuleBundler.Json
