/-! Whole numbers in base ten. -/

-- Powers of whole numbers are those of the core library, in every module and whatever is imported beside.
attribute [instance (20000), default_instance 20000] instPowNat

namespace Criteria
namespace Decimal

/-- The digits of `n`, most significant first, with no leading zero. -/
def ofNat (n : Nat) : List Char := Nat.toDigits 10 n

/-- The digits of `n`, after a minus sign if it is negative. -/
def ofInt : Int → List Char
  | .ofNat n => ofNat n
  | .negSucc n => '-' :: ofNat (n + 1)

/-- The number that a run of digits spells. -/
def toNat (digits : List Char) : Nat := Nat.ofDigitChars 10 digits 0

theorem toNat_ofNat (n : Nat) : toNat (ofNat n) = n := Nat.ofDigitChars_ten_toDigits

theorem isDigit_of_mem_ofNat {n : Nat} {c : Char} (h : c ∈ ofNat n) : c.isDigit = true :=
  Nat.isDigit_of_mem_toDigits (by decide) (by decide) h

theorem ofNat_ne_nil (n : Nat) : ofNat n ≠ [] := Nat.toDigits_ne_nil

/-- The decimal text of a whole number. -/
def text (n : Int) : String := String.ofList (ofInt n)

end Decimal
end Criteria
