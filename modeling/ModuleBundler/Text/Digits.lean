/-!
# Decimal digits

A number is written in the ten digits of ASCII. Zeros before another digit do not count.
-/

namespace ModuleBundler.Text

/-- The number that a run of decimal digits spells. -/
def digitsValue (ds : List Char) : Nat := Nat.ofDigitChars 10 ds 0

/-- The number that digits spell; `none` where there are none, or something else. -/
def readDigits? (cs : List Char) : Option Nat :=
  if cs.isEmpty ∨ ¬ cs.all Char.isDigit then none else some (digitsValue cs)

theorem readDigits?_eq_some_iff {cs : List Char} {n : Nat} :
    readDigits? cs = some n ↔ cs ≠ [] ∧ (∀ c ∈ cs, c.isDigit = true) ∧ digitsValue cs = n := by
  unfold readDigits?
  rw [Option.ite_none_left_eq_some, not_or, List.isEmpty_iff, Decidable.not_not, List.all_eq_true,
    Option.some.injEq, and_assoc]

example : readDigits? "042".toList = some 42 := by decide

end ModuleBundler.Text
