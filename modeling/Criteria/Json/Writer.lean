import Criteria.Binary64.Format
import Criteria.Decimal
import Criteria.Json.Quoted
import Criteria.Value

/-! Writing values as JSON text, without white space. -/

namespace Criteria
namespace Json

/-- The items in order, set apart by commas, between brackets. -/
def bracketed (items : List (List Char)) : List Char := '[' :: [','].intercalate items ++ [']']

/-- Doubles in JSON text always have a point or an exponent. They are positional from a hundred
    thousandth to below ten quadrillion, and of two equally near decimals the even one is taken. -/
def floatFormat : Binary64.Format :=
  { tie := .even, isPositional := fun e => -5 ≤ e && e ≤ 15, wholeEnd := ['.', '0'] }

end Json

namespace Value

/-- A value as JSON text. What is no finite number is null, and bytes are an array of numbers. -/
def json : Value → List Char
  | .null => "null".toList
  | .bool true => "true".toList
  | .bool false => "false".toList
  | .int n => Decimal.ofInt n.toInt
  | .float x => if x.isFinite then Json.floatFormat.write x else "null".toList
  | .text s => Json.Quoted.write s.toList
  | .blob bytes => Json.bracketed (bytes.map fun b => Decimal.ofNat b.toNat)

/-- Values as a JSON array. -/
def jsonArray (values : List Value) : String := String.ofList (Json.bracketed (values.map json))

end Value
end Criteria
