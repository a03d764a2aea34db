import Criteria.Text.Blank
import Criteria.Value

/-! Comparison operators. An operator token is free text; its normal form is trimmed, in upper case, and
    free of the two shorthands: an exclamation mark stands for inequality, and a number, which is what is
    left of a position in a list, stands for equality. Against null, equality becomes an identity test. -/

namespace Criteria
namespace Operator

/-- Whether the characters are a decimal number: one sign at most, digits, one point at most, and a digit
    on one side of it at least. -/
def isNumeric (token : List Char) : Bool :=
  let digits := match token with
    | '+' :: rest => rest
    | '-' :: rest => rest
    | rest => rest
  let whole := digits.takeWhile (· != '.')
  match digits.dropWhile (· != '.') with
  | [] => !whole.isEmpty && whole.all Char.isDigit
  | _ :: fraction => (!whole.isEmpty || !fraction.isEmpty) && whole.all Char.isDigit && fraction.all Char.isDigit

/-- Whether the text is a decimal number, with no blank around it. -/
def isNumericToken (token : String) : Bool := isNumeric token.toList

/-- The operators that can head a list of a token and an operand; any other text there is data. -/
def comparisons : List String :=
  ["!", "=", "<>", "!=", "<", "<=", ">", ">=", "IS", "IS NOT", "NOT LIKE"]

/-- Whether the text spells one of `comparisons`. -/
def isComparison (token : String) : Bool := comparisons.contains (Text.keyword token)

/-- The operator that a token spells; no token and a blank one mean equality. -/
def ofToken : Option String → String
  | none => "="
  | some token =>
    match Text.trim token with
    | "" => "="
    | "!" => "<>"
    | trimmed => if isNumericToken trimmed then "=" else trimmed.toUpper

/-- The operator that tests against null what `operator` tests against a value. -/
def againstNull (operator : String) : String :=
  match operator with
  | "=" => "IS"
  | "<>" | "!=" => "IS NOT"
  | other => other

/-- The operator written between a field and `value`. -/
def resolve (value : Value) (token : Option String) : String :=
  if value.isNull then againstNull (ofToken token) else ofToken token

end Operator
end Criteria
