import Criteria.Dialect
import Criteria.Fault
import Criteria.Operator
import Criteria.SetRelation

/-! Tests on a single field. -/

namespace Criteria

/-- What a field is tested for. -/
inductive Test where
  /-- A comparison with a value; without an operator token it is for equality. -/
  | compare (operator : Option String) (value : Value)
  /-- A range with both ends. -/
  | between (low high : Value)
  /-- A set given by its members. -/
  | oneOf (relation : SetRelation) (values : List Value)
  /-- A set given by a sub-statement. -/
  | inQuery (relation : SetRelation) (query : Fragment)
  /-- A text pattern, wildcards included. -/
  | like (pattern : Value)
  /-- Equality with an expression taken as it stands. -/
  | equalsRaw (expression : Fragment)
  /-- Equality with the value of a sub-statement. -/
  | equalsQuery (query : Fragment)
deriving DecidableEq

namespace Test

/-- What is wrong with the test, if the field has a name: a set given by its members needs one. -/
def fault? (field : String) : Test → Option Fault
  | .oneOf relation [] => some (.missingOperand field relation.words)
  | _ => none

/-- The test on `field` as a piece of SQL. -/
def fragment (field : String) : Test → Fragment
  | .compare operator value =>
    .ofText (field ++ " " ++ Operator.resolve value operator ++ " ") ++ Dialect.generic.valueFragment value
  | .between low high =>
    .ofText (field ++ " BETWEEN ") ++ Dialect.generic.valueFragment low ++ .ofText " AND " ++
      Dialect.generic.valueFragment high
  | .oneOf relation values =>
    .ofText (field ++ " " ++ relation.words ++ " (") ++ Dialect.generic.setFragment values ++ .ofText ")"
  | .inQuery relation query => .ofText (field ++ " " ++ relation.words ++ " (") ++ query ++ .ofText ")"
  | .like pattern => .ofText (field ++ " LIKE ") ++ Dialect.generic.valueFragment pattern
  | .equalsRaw expression => .ofText (field ++ " = ") ++ expression
  | .equalsQuery query => .ofText (field ++ " = (") ++ query ++ .ofText ")"

/-- Equality up to the spelling of values; operator tokens count as they are written. -/
def same : Test → Test → Bool
  | .compare o v, .compare o' v' => o = o' && v.same v'
  | .between l h, .between l' h' => l.same l' && h.same h'
  | .oneOf m vs, .oneOf m' vs' => m = m' && vs.isEqv vs' Value.same
  | .inQuery m q, .inQuery m' q' => m = m' && q.same q'
  | .like p, .like p' => p.same p'
  | .equalsRaw e, .equalsRaw e' => e.same e'
  | .equalsQuery q, .equalsQuery q' => q.same q'
  | _, _ => false

end Test
end Criteria
