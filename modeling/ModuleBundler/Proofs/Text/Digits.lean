import ModuleBundler.Text.Digits

/-!
# Spans and digits

A span of characters of one kind ends where a character of another kind follows. A number that is written
in decimal digits is read back by the readers of digits.
-/

namespace ModuleBundler.Text

/-! ### Spans -/

section

variable {p : Char → Bool} {body rest : List Char} (hb : ∀ c ∈ body, p c = true)
  (hr : ∀ c, rest.head? = some c → p c = false)

include hb hr

theorem takeWhile_append_of_stop : (body ++ rest).takeWhile p = body := by
  rw [List.takeWhile_append_of_pos hb]
  cases rest with
  | nil => simp
  | cons c rest => simp [hr c rfl]

theorem dropWhile_append_of_stop : (body ++ rest).dropWhile p = rest := by
  rw [List.dropWhile_append_of_pos hb]
  cases rest with
  | nil => rfl
  | cons c rest => simp [hr c rfl]

end

/-! ### Digits -/

theorem toList_toString (n : Nat) : (toString n).toList = Nat.toDigits 10 n := Nat.toList_repr

theorem toList_toString_ne_nil (n : Nat) : (toString n).toList ≠ [] :=
  toList_toString n ▸ Nat.toDigits_ne_nil

theorem isDigit_of_mem_toString {n : Nat} {c : Char} (h : c ∈ (toString n).toList) : c.isDigit = true :=
  Nat.isDigit_of_mem_toDigits (by decide) (by decide) (toList_toString n ▸ h)

/-- The digits of a number spell the number. -/
theorem digitsValue_toString (n : Nat) : digitsValue (toString n).toList = n := by
  rw [digitsValue, toList_toString, Nat.ofDigitChars_ten_toDigits]

theorem readDigits?_toString (n : Nat) : readDigits? (toString n).toList = some n :=
  readDigits?_eq_some_iff.mpr
    ⟨toList_toString_ne_nil n, fun _ => isDigit_of_mem_toString, digitsValue_toString n⟩

/-- The only number whose digits begin with a zero is zero. -/
theorem eq_zero_of_head?_toString {n : Nat} (h : (toString n).toList.head? = some '0') : n = 0 := by
  rw [toList_toString] at h
  induction n using Nat.strongRecOn with
  | ind n ih => ?_
  by_cases hn : n < 10
  · have hd : ∀ m < 10, Nat.digitChar m = '0' → m = 0 := by decide
    rw [Nat.toDigits_of_lt_base hn] at h
    exact hd n hn (Option.some.inj h)
  · obtain ⟨d, ds, hd⟩ := List.exists_cons_of_ne_nil (Nat.toDigits_ne_nil (n := n / 10) (b := 10))
    rw [Nat.toDigits_of_base_le (by decide) (by omega), hd] at h
    have h0 := ih (n / 10) (by omega) (hd ▸ h)
    omega

end ModuleBundler.Text
