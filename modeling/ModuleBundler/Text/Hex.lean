/-!
# Hexadecimal digits

Digits are written in lower case and read in either case.
-/

namespace ModuleBundler.Text

/-- The digit of `n`, for `n` below 16. -/
def hexDigit (n : Nat) : Char :=
  if n < 10 then Char.ofNat ('0'.toNat + n) else Char.ofNat ('a'.toNat + (n - 10))

/-- The value of a digit. -/
def hexValue? (c : Char) : Option Nat :=
  if '0' ≤ c ∧ c ≤ '9' then some (c.toNat - '0'.toNat)
  else if 'a' ≤ c ∧ c ≤ 'f' then some (c.toNat - 'a'.toNat + 10)
  else if 'A' ≤ c ∧ c ≤ 'F' then some (c.toNat - 'A'.toNat + 10)
  else none

theorem hexValue?_hexDigit : ∀ n < 16, hexValue? (hexDigit n) = some n := by decide

/-- The number that digits spell; `none` where one of them is no digit. -/
def hexNumber? (cs : List Char) : Option Nat :=
  cs.foldlM (fun n c => (hexValue? c).map (n * 16 + ·)) 0

/-- Bytes in hexadecimal digits, two for each. -/
def hexOfBytes (bs : List UInt8) : List Char :=
  bs.flatMap fun b => [hexDigit (b.toNat / 16), hexDigit (b.toNat % 16)]

/-- The bytes that pairs of digits spell. -/
def bytesOfHex? : List Char → Option (List UInt8)
  | [] => some []
  | a :: b :: rest => do
    let n ← hexNumber? [a, b]
    return UInt8.ofNat n :: (← bytesOfHex? rest)
  | _ => none

theorem bytesOfHex?_hexOfBytes (bs : List UInt8) : bytesOfHex? (hexOfBytes bs) = some bs := by
  induction bs with
  | nil => rfl
  | cons b bs ih =>
    have hb : b.toNat < 256 := b.toNat_lt
    have h1 := hexValue?_hexDigit (b.toNat / 16) (by omega)
    have h2 := hexValue?_hexDigit (b.toNat % 16) (by omega)
    have h3 : b.toNat / 16 * 16 + b.toNat % 16 = b.toNat := by omega
    unfold hexOfBytes at ih ⊢
    simp [bytesOfHex?, hexNumber?, h1, h2, h3, ih]

end ModuleBundler.Text
