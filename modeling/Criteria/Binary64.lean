import Criteria.Decimal

/-! Numbers of IEEE 754 in double and single precision, given by their bits. A finite double is a whole
    significand times a power of two, and every ratio of whole numbers has a nearest double. -/

namespace Criteria

/-- A number of IEEE 754 in double precision: one sign bit, eleven exponent bits, fifty-two fraction bits. -/
structure Binary64 where
  bits : UInt64
deriving DecidableEq, Inhabited

/-- A number of IEEE 754 in single precision: one sign bit, eight exponent bits, twenty-three fraction bits. -/
structure Binary32 where
  bits : UInt32
deriving DecidableEq, Inhabited

namespace Binary64

/-- All bits but the sign, which order the numbers by absolute value. -/
def magnitude (x : Binary64) : Nat := x.bits.toNat % 2 ^ 63

/-- Whether the sign bit is set. -/
def isNegative (x : Binary64) : Bool := 2 ^ 63 ≤ x.bits.toNat

/-- The magnitude of the two infinities; a larger one belongs to no number. -/
def infinity : Nat := 2047 * 2 ^ 52

/-- Whether the bits stand for no number. -/
def isNaN (x : Binary64) : Bool := infinity < x.magnitude

/-- Whether the bits stand for a number that is no infinity. -/
def isFinite (x : Binary64) : Bool := x.magnitude < infinity

/-- Whether the number is one of the two zeros. -/
def isZero (x : Binary64) : Bool := x.magnitude = 0

/-- Equality of numbers: the two zeros are one number, and what is no number equals nothing. -/
def same (x y : Binary64) : Bool :=
  !x.isNaN && !y.isNaN && (x.bits == y.bits || x.isZero && y.isZero)

theorem same_comm (x y : Binary64) : x.same y = y.same x := by
  simp only [same, Bool.beq_comm (a := x.bits), Bool.and_comm x.isZero, Bool.and_comm (!x.isNaN)]

/-- The whole number that a power of two scales to the absolute value of a finite number. -/
def significand (x : Binary64) : Nat :=
  if x.magnitude < 2 ^ 52 then x.magnitude else 2 ^ 52 + x.magnitude % 2 ^ 52

/-- The exponent of the power of two that scales the significand of a finite number. -/
def exponent (x : Binary64) : Int :=
  if x.magnitude < 2 ^ 52 then -1074 else (x.magnitude / 2 ^ 52 : Nat) - 1075

/-! ### Rounding -/

/-- The number with the given sign and magnitude. -/
def ofMagnitude (negative : Bool) (magnitude : Nat) : Binary64 :=
  ⟨UInt64.ofNat (if negative then 2 ^ 63 + magnitude else magnitude)⟩

/-- The quotient rounded to the nearest whole number, a half to the even one. -/
def roundedQuotient (num den : Nat) : Nat :=
  let floor := num / den
  let twice := 2 * (num % den)
  if twice < den ∨ twice = den ∧ floor % 2 = 0 then floor else floor + 1

/-- The ratio `num / den` divided by `2 ^ e`, as a ratio of whole numbers. -/
def scaled (num den : Nat) (e : Int) : Nat × Nat :=
  (num * 2 ^ (-e).toNat, den * 2 ^ e.toNat)

/-- The exponent at which the positive ratio `num / den` has a significand below `2 ^ 53`, and one of at
    least `2 ^ 52` unless the exponent is the least one. -/
def ratioExponent (num den : Nat) : Int :=
  let guess : Int := (num.log2 : Int) - den.log2 - 53
  let ratio := scaled num den guess
  max (-1074) (if ratio.1 < 2 ^ 53 * ratio.2 then guess else guess + 1)

/-- The double nearest to `num / den`, a tie going to the even significand; too large a ratio gives an
    infinity. -/
def ofRatio (negative : Bool) (num den : Nat) : Binary64 :=
  if num = 0 then ofMagnitude negative 0
  else
    let e := ratioExponent num den
    let ratio := scaled num den e
    ofMagnitude negative (min infinity ((e + 1074).toNat * 2 ^ 52 + roundedQuotient ratio.1 ratio.2))

end Binary64

namespace Binary32

/-- The double with the same value, of which there is one for every single. -/
def widen (x : Binary32) : Binary64 :=
  let bits := x.bits.toNat
  let negative := decide (2 ^ 31 ≤ bits)
  let exponent := bits / 2 ^ 23 % 2 ^ 8
  let fraction := bits % 2 ^ 23
  if exponent = 255 then .ofMagnitude negative (Binary64.infinity + fraction * 2 ^ 29)
  else if exponent = 0 then .ofRatio negative fraction (2 ^ 149)
  else .ofMagnitude negative ((exponent + 896) * 2 ^ 52 + fraction * 2 ^ 29)

end Binary32
end Criteria
