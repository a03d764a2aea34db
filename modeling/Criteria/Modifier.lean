import Criteria.Operator
import Criteria.SetRelation

/-! Modifiers: the words that stand between a field and its operand in a document. -/

namespace Criteria

/-- What a modifier token asks for. -/
inductive Modifier where
  | between
  | set (relation : SetRelation)
  | like
  /-- A comparison; the token is kept as it is written. -/
  | comparison
deriving DecidableEq

namespace Modifier

/-- The modifier that a token spells; a token that is no keyword is an operator. -/
def ofToken (token : String) : Modifier :=
  if Text.keyword token = "BETWEEN" then .between
  else
    match SetRelation.ofKeyword? token with
    | some relation => .set relation
    | none => if Text.keyword token = "LIKE" then .like else .comparison

/-- Whether a token may head a list of a token and an operand. Only keywords and the known comparison
    operators may; any other text there is data. -/
def leadsList (token : String) : Bool :=
  match ofToken token with
  | .comparison => Operator.isComparison token
  | _ => true

end Modifier
end Criteria
