import ModuleBundler.Proofs.Json.Literal
import ModuleBundler.Proofs.Json.Number

/-!
# The texts of JSON values

The compact text of a value begins with a character that tells what the value is, and no character in it
is a control character, since literals escape them.
-/

namespace ModuleBundler.Json

open Text

/-- What holds of an array or an object when it holds of everything in it holds of every value. -/
theorem induct {P : Json → Prop} (null : P .null) (bool : ∀ b, P (.bool b)) (number : ∀ n, P (.number n))
    (string : ∀ s, P (.string s)) (array : ∀ vs, (∀ v ∈ vs, P v) → P (.array vs))
    (object : ∀ ms, (∀ m ∈ ms, P m.2) → P (.object ms)) : ∀ v : Json, P v
  | .null => null
  | .bool b => bool b
  | .number n => number n
  | .string s => string s
  | .array vs => array vs fun v _hv => induct null bool number string array object v
  | .object ms => object ms fun m _hm => induct null bool number string array object m.2
termination_by v => sizeOf v
decreasing_by
  · have := List.sizeOf_lt_of_mem _hv
    simp only [Json.array.sizeOf_spec]
    omega
  · have := List.sizeOf_lt_of_mem _hm
    obtain ⟨k, v⟩ := m
    simp only [Prod.mk.sizeOf_spec, Json.object.sizeOf_spec] at this ⊢
    omega

/-! ### Beginnings -/

theorem BeginsNumber.isGap_eq_false {c : Char} (hc : BeginsNumber c) : isGap c = false := by
  simp only [isGap, Bool.or_eq_false_iff, beq_eq_false_iff_ne]
  exact ⟨⟨⟨hc.ne (by decide), hc.ne (by decide)⟩, hc.ne (by decide)⟩, hc.ne (by decide)⟩

theorem toString_int_cons (m : Int) :
    ∃ c cs, (toString m).toList = c :: cs ∧ BeginsNumber c := by
  cases m with
  | ofNat m =>
    obtain ⟨d, ds, hd, hdigit⟩ := exists_digit_cons m
    exact ⟨d, ds, hd, .inl hdigit⟩
  | negSucc m => exact ⟨_, _, toString_negSucc m, .inr rfl⟩

theorem numberChars_cons (n : JsonNumber) :
    ∃ c cs, numberChars n = c :: cs ∧ BeginsNumber c := by
  cases n with
  | whole m => exact toString_int_cons m
  | decimal m e =>
    obtain ⟨c, cs, hc, h⟩ := toString_int_cons m
    exact ⟨c, _, by rw [numberChars, hc]; rfl, h⟩

/-- The text of a value begins with a character that is neither a gap nor a closing bracket. -/
theorem chars_cons (v : Json) : ∃ c cs, chars v = c :: cs ∧ isGap c = false ∧ c ≠ ']' := by
  match v with
  | .null => exact ⟨_, _, by rw [chars]; rfl, by decide, by decide⟩
  | .bool true => exact ⟨_, _, by rw [chars]; rfl, by decide, by decide⟩
  | .bool false => exact ⟨_, _, by rw [chars]; rfl, by decide, by decide⟩
  | .number n =>
    obtain ⟨c, cs, hc, h⟩ := numberChars_cons n
    exact ⟨c, cs, by rw [chars, hc], h.isGap_eq_false, h.ne (by decide)⟩
  | .string s =>
    obtain ⟨body, hs, -⟩ := readLiteral_stringChars s []
    exact ⟨_, _, by rw [chars, hs], by decide, by decide⟩
  | .array [] => exact ⟨_, _, by rw [chars], by decide, by decide⟩
  | .array (w :: ws) => exact ⟨_, _, by rw [chars], by decide, by decide⟩
  | .object [] => exact ⟨_, _, by rw [chars], by decide, by decide⟩
  | .object ((k, w) :: ms) => exact ⟨_, _, by rw [chars], by decide, by decide⟩

example : chars (.array [.null]) = "[null]".toList := by cbv

/-! ### Control characters -/

/-- Whether a text has no control characters. -/
def Plain (cs : List Char) : Prop := ∀ c ∈ cs, 0x20 ≤ c.toNat

instance (cs : List Char) : Decidable (Plain cs) := List.decidableBAll _ cs

@[simp] theorem plain_nil : Plain [] := fun _ h => by cases h

@[simp] theorem plain_cons {c : Char} {cs : List Char} : Plain (c :: cs) ↔ 0x20 ≤ c.toNat ∧ Plain cs :=
  List.forall_mem_cons

@[simp] theorem plain_append {as bs : List Char} : Plain (as ++ bs) ↔ Plain as ∧ Plain bs :=
  List.forall_mem_append

theorem plain_escapeChar (c : Char) : Plain (escapeChar c) := by
  have hhex : ∀ n < 16, 0x20 ≤ (hexDigit n).toNat := by decide
  have hshort : ∀ e d, shortEscape? e = some d → 0x20 ≤ e.toNat := by
    intro e d h
    unfold shortEscape? at h
    split_ifs at h with h₁ h₂ h₃ h₄ h₅ h₆ h₇ h₈ <;> subst e <;> decide
  rcases escapeChar_cases c with ⟨e, -, he, hc⟩ | ⟨hn, hc⟩ | ⟨-, -, hn, hc⟩
  · rw [hc]
    simpa using hshort e c he
  · rw [hc]
    simpa using ⟨hhex (c.toNat / 16) (by omega), hhex (c.toNat % 16) (by omega)⟩
  · rw [hc]
    simpa using hn

theorem plain_stringChars (s : Option String) : Plain (stringChars s) := by
  cases s with
  | none => decide
  | some s =>
    have h : Plain (s.toList.flatMap escapeChar) := by
      intro c hc
      obtain ⟨d, -, hd⟩ := List.mem_flatMap.mp hc
      exact plain_escapeChar d c hd
    have hs : stringChars (some s) = '\x22' :: (s.toList.flatMap escapeChar ++ ['\x22']) := rfl
    rw [hs, plain_cons, plain_append]
    exact ⟨by decide, h, by decide⟩

theorem plain_toString_nat (n : Nat) : Plain (toString n).toList := by
  intro c hc
  have h := isDigit_of_mem_toString hc
  simp only [Char.isDigit, Bool.and_eq_true, decide_eq_true_eq, ge_iff_le, UInt32.le_iff_toNat_le] at h
  exact Nat.le_trans (by decide) h.1

theorem plain_numberChars (n : JsonNumber) : Plain (numberChars n) := by
  have hint : ∀ m : Int, Plain (toString m).toList := by
    intro m
    cases m with
    | ofNat m => exact plain_toString_nat m
    | negSucc m =>
      rw [toString_negSucc, plain_cons]
      exact ⟨by decide, plain_toString_nat _⟩
  cases n with
  | whole m => exact hint m
  | decimal m e => simpa [numberChars] using ⟨hint m, hint e⟩

theorem plain_elementChars {vs : List Json} (h : ∀ v ∈ vs, Plain (chars v)) : Plain (elementChars vs) := by
  induction vs with
  | nil => simp [elementChars]
  | cons v vs ih =>
    obtain ⟨hv, hvs⟩ := List.forall_mem_cons.mp h
    simpa [elementChars] using ⟨hv, ih hvs⟩

theorem plain_memberChars {ms : List (Option String × Json)} (h : ∀ m ∈ ms, Plain (chars m.2)) :
    Plain (memberChars ms) := by
  induction ms with
  | nil => simp [memberChars]
  | cons m ms ih =>
    obtain ⟨hm, hms⟩ := List.forall_mem_cons.mp h
    simpa [memberChars] using ⟨plain_stringChars m.1, hm, ih hms⟩

/-- No character in the text of a value is a control character. -/
theorem plain_chars (v : Json) : Plain (chars v) := by
  induction v using induct with
  | null => decide
  | bool b => cases b <;> decide
  | number n => simpa [chars] using plain_numberChars n
  | string s => simpa [chars] using plain_stringChars s
  | array vs ih =>
    cases vs with
    | nil => simp [chars]
    | cons v vs =>
      obtain ⟨hv, hvs⟩ := List.forall_mem_cons.mp ih
      simpa [chars] using ⟨hv, plain_elementChars hvs⟩
  | object ms ih =>
    cases ms with
    | nil => simp [chars]
    | cons m ms =>
      obtain ⟨hm, hms⟩ := List.forall_mem_cons.mp ih
      simpa [chars] using ⟨plain_stringChars m.1, hm, plain_memberChars hms⟩

end ModuleBundler.Json
