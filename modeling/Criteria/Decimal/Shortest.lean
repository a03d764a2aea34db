import Criteria.Decimal

/-! The fewest decimal digits that still tell a number from its neighbours. Around the number lies an
    interval of points that are read as it; among the decimal grids of one digit, two digits and so on, the
    first one with a point in the interval is taken, and of two such points the nearer. -/

namespace Criteria
namespace Decimal

/-- A positive decimal number `d.ddd × 10 ^ exponent`, by its digits. -/
structure Scientific where
  digits : List Char
  exponent : Int
deriving DecidableEq, Inhabited

/-- A positive ratio between two others, all three over one denominator. The points between the outer
    two are read as the middle one, and the outer two as well if the interval is closed. -/
structure Interval where
  low : Nat
  mid : Nat
  high : Nat
  den : Nat
  closed : Bool

/-- Which of two grid points is taken when both are equally near. -/
inductive Tie where
  | up
  | even
deriving DecidableEq

namespace Interval

/-- Whether the point `point / den` lies in the interval. -/
def holds (i : Interval) (point : Nat) : Bool :=
  if i.closed then i.low ≤ point && point ≤ i.high else i.low < point && point < i.high

/-- The interval with every ratio multiplied by `10 ^ (-k)`, so that the points of the grid of step
    `10 ^ k` become the whole numbers. -/
def onGrid (i : Interval) (k : Int) : Interval :=
  let up := 10 ^ (-k).toNat
  { i with low := i.low * up, mid := i.mid * up, high := i.high * up, den := i.den * 10 ^ k.toNat }

/-- The whole number next to the middle of the interval that lies in it, if one does. -/
def nearest (i : Interval) (tie : Tie) : Option Nat :=
  let floor := i.mid / i.den
  let below := floor * i.den
  let above := below + i.den
  match i.holds below, i.holds above with
  | false, false => none
  | true, false => some floor
  | false, true => some (floor + 1)
  | true, true =>
    let down := i.mid - below
    let rise := above - i.mid
    if down < rise then some floor
    else if rise < down then some (floor + 1)
    else match tie with
      | .up => some (floor + 1)
      | .even => some (if floor % 2 = 0 then floor else floor + 1)

/-- The exponent of the first digit of the middle. -/
def firstExponent (i : Interval) : Int :=
  let guess : Int := (ofNat i.mid).length - (ofNat i.den).length
  let scaled := i.onGrid guess
  if scaled.den ≤ scaled.mid then guess else guess - 1

/-- The decimal number of fewest digits in the interval, the nearest to the middle among those. Seventeen
    digits tell any two doubles apart, so no grid beyond is looked at. -/
def shortest (i : Interval) (tie : Tie) : Option Scientific :=
  (List.range 17).findSome? fun (n : Nat) =>
    let k : Int := i.firstExponent - n
    ((i.onGrid k).nearest tie).map fun point =>
      let digits := ofNat point
      { digits := (digits.reverse.dropWhile (· == '0')).reverse
        exponent := k + digits.length - 1 }

end Interval

namespace Scientific

/-- The digits before the decimal point and those after it, in positional notation. -/
def positional (s : Scientific) : List Char × List Char :=
  if s.exponent < 0 then
    (['0'], List.replicate (-s.exponent - 1).toNat '0' ++ s.digits)
  else
    let whole := s.exponent.toNat + 1
    (s.digits.take whole ++ List.replicate (whole - s.digits.length) '0', s.digits.drop whole)

end Scientific
end Decimal
end Criteria
