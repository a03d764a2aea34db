import Criteria.Binary64
import Criteria.Decimal.Shortest

/-! Finite doubles as decimal text: the fewest digits that are read back as the same double, laid out as a
    format record says. -/

namespace Criteria
namespace Binary64

/-- How a finite double is written. -/
structure Format where
  /-- Which of two equally near decimals is taken. -/
  tie : Decimal.Tie
  /-- Whether a first digit of this exponent calls for positional notation. -/
  isPositional : Int → Bool
  /-- What follows the digits of a whole number in positional notation. -/
  wholeEnd : List Char

/-- The decimals that are read as a finite positive double: those nearer to it than to its neighbours,
    with the two midpoints if its significand is even. Below a power of two the neighbour is nearer. -/
def interval (x : Binary64) : Decimal.Interval :=
  let m := 4 * x.significand
  let e := x.exponent - 2
  let up := 2 ^ e.toNat
  let gap := if x.significand = 2 ^ 52 ∧ x.magnitude / 2 ^ 52 ≠ 1 then 1 else 2
  { low := (m - gap) * up
    mid := m * up
    high := (m + 2) * up
    den := 2 ^ (-e).toNat
    closed := x.significand % 2 = 0 }

/-- The fewest digits that are read back as the absolute value of a finite double. -/
def digits (x : Binary64) (tie : Decimal.Tie) : Decimal.Scientific :=
  if x.isZero then ⟨['0'], 0⟩ else (x.interval.shortest tie).getD ⟨['0'], 0⟩

/-- The text of the power of ten in scientific notation, always signed. -/
def exponentText (e : Int) : List Char :=
  'e' :: (if e < 0 then '-' else '+') :: Decimal.ofNat e.natAbs

namespace Format

/-- The text of an unsigned decimal number. -/
def layout (f : Format) (s : Decimal.Scientific) : List Char :=
  if f.isPositional s.exponent then
    match s.positional with
    | (whole, []) => whole ++ f.wholeEnd
    | (whole, fraction) => whole ++ '.' :: fraction
  else
    match s.digits with
    | [] => []
    | [digit] => digit :: exponentText s.exponent
    | digit :: more => digit :: '.' :: more ++ exponentText s.exponent

/-- The text of a finite double, after a minus sign if its sign bit is set. -/
def write (f : Format) (x : Binary64) : List Char :=
  let text := f.layout (x.digits f.tie)
  if x.isNegative then '-' :: text else text

end Format
end Binary64
end Criteria
