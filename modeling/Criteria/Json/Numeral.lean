import Criteria.Decimal
import Criteria.Document

/-! Numbers of JSON text. A numeral without a point and an exponent is a whole number if that fits 64 bits,
    and every other numeral is the nearest double. Minus zero is a double, which alone has a minus zero. -/

namespace Criteria
namespace Json

/-- The parts of a numeral. A fraction or exponent that is not written is absent. -/
structure Numeral where
  negative : Bool
  whole : List Char
  fraction : Option (List Char)
  exponent : Option Int
deriving DecidableEq

namespace Numeral

/-- The exponent that follows the letter. -/
def exponent? (cs : List Char) : Option Int :=
  let (negative, digits) := match cs with
    | '+' :: rest => (false, rest)
    | '-' :: rest => (true, rest)
    | rest => (false, rest)
  if digits.isEmpty || !digits.all Char.isDigit then none
  else
    let n : Int := Decimal.toNat digits
    some (if negative then -n else n)

/-- The optional exponent at the end of a numeral. -/
def ending? : List Char → Option (Option Int)
  | [] => some none
  | c :: rest => if c = 'e' ∨ c = 'E' then (exponent? rest).map some else none

/-- The parts of an unsigned numeral. Its first digit is zero only if no other digit precedes the point. -/
def unsigned? (negative : Bool) (cs : List Char) : Option Numeral :=
  let whole := cs.takeWhile Char.isDigit
  if whole.isEmpty || (whole.head? = some '0' && 1 < whole.length) then none
  else
    match cs.dropWhile Char.isDigit with
    | '.' :: rest =>
      let fraction := rest.takeWhile Char.isDigit
      if fraction.isEmpty then none
      else (ending? (rest.dropWhile Char.isDigit)).map fun e => ⟨negative, whole, some fraction, e⟩
    | rest => (ending? rest).map fun e => ⟨negative, whole, none, e⟩

/-- The parts of a numeral. -/
def ofChars? : List Char → Option Numeral
  | '-' :: rest => unsigned? true rest
  | cs => unsigned? false cs

/-- A finite double as a number. -/
def finite? (x : Binary64) : Option Number :=
  if h : x.isFinite = true then some (.double x h) else none

/-- The double nearest to `digits × 10 ^ exponent`. No double but zero and the infinities has a first
    digit at an exponent beyond the bounds that are tested. -/
def nearestDouble (negative : Bool) (digits : Nat) (exponent : Int) : Binary64 :=
  let size : Int := exponent + (Decimal.ofNat digits).length
  if digits = 0 ∨ size < -330 then .ofMagnitude negative 0
  else if 310 < size then .ofMagnitude negative Binary64.infinity
  else .ofRatio negative (digits * 10 ^ exponent.toNat) (10 ^ (-exponent).toNat)

/-- The number that a numeral stands for; one beyond the largest double stands for none. -/
def toNumber? (s : Numeral) : Option Number :=
  match s.fraction, s.exponent with
  | none, none =>
    let n : Nat := Decimal.toNat s.whole
    let signed : Int := if s.negative then -(n : Int) else n
    if s.negative ∧ n = 0 then finite? (.ofMagnitude true 0)
    else if h : -2 ^ 63 ≤ signed ∧ signed < 2 ^ 64 then some (.integer signed h.1 h.2)
    else finite? (nearestDouble s.negative n 0)
  | fraction, exponent =>
    let fraction := fraction.getD []
    finite? (nearestDouble s.negative (Decimal.toNat (s.whole ++ fraction)) (exponent.getD 0 - fraction.length))

end Numeral
end Json
end Criteria
