/-! Hexadecimal digits, and bytes as pairs of them. Digits are written in one case and read in either. -/

namespace Criteria
namespace Text

/-- A number below sixteen as a digit in lower case. -/
def hexDigit (n : Nat) : Char := Nat.digitChar n

/-- Two digits in upper case for each byte. -/
def hex (bytes : List UInt8) : List Char :=
  bytes.flatMap fun b => [(hexDigit (b.toNat / 16)).toUpper, (hexDigit (b.toNat % 16)).toUpper]

/-- The number below sixteen that a digit of either case stands for. -/
def hexValue? (c : Char) : Option Nat :=
  if c.isDigit then some (c.toNat - 48)
  else if 'A' ≤ c ∧ c ≤ 'F' then some (c.toNat - 55)
  else if 'a' ≤ c ∧ c ≤ 'f' then some (c.toNat - 87)
  else none

/-- The bytes that pairs of digits spell. -/
def bytesOfHex? : List Char → Option (List UInt8)
  | [] => some []
  | [_] => none
  | high :: low :: rest => do
    let h ← hexValue? high
    let l ← hexValue? low
    let bytes ← bytesOfHex? rest
    pure (UInt8.ofNat (16 * h + l) :: bytes)

theorem hexValue?_toUpper_hexDigit {n : Nat} (h : n < 16) : hexValue? (hexDigit n).toUpper = some n := by
  have all : ∀ k, k < 16 → hexValue? (hexDigit k).toUpper = some k := by decide
  exact all n h

/-- Bytes are read back from their digits. -/
theorem bytesOfHex?_hex (bytes : List UInt8) : bytesOfHex? (hex bytes) = some bytes := by
  induction bytes with
  | nil => rfl
  | cons b bytes ih =>
    have hb := b.toNat_lt
    have high := hexValue?_toUpper_hexDigit (show b.toNat / 16 < 16 by omega)
    have low := hexValue?_toUpper_hexDigit (show b.toNat % 16 < 16 by omega)
    have whole : UInt8.ofNat (16 * (b.toNat / 16) + b.toNat % 16) = b := by
      rw [show 16 * (b.toNat / 16) + b.toNat % 16 = b.toNat by omega, UInt8.ofNat_toNat]
    rw [hex] at ih ⊢
    simp only [List.flatMap_cons, List.cons_append, List.nil_append, bytesOfHex?, high, low, ih,
      Option.bind_eq_bind, Option.bind_some, whole]
    rfl

end Text
end Criteria
