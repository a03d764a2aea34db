import Criteria.Tree

/-! Conditions: criteria as they are written down, before they are checked. -/

namespace Criteria

/-- One criterion. -/
inductive Condition where
  /-- A test on a field. -/
  | field (name : String) (test : Test)
  /-- A nested group. Without a connective it takes the one that its surroundings do not use. -/
  | group (connective : Option Connective) (children : List Condition)
  /-- SQL text taken as it stands. -/
  | raw (piece : Fragment)
  /-- A clause tree, which keeps its own connective. -/
  | tree (t : Tree)

namespace Condition

variable {α β : Type} [ToValue α] [ToValue β]

/-- The field equals the value, or is null if the value is. -/
def eq (name : String) (value : α) : Condition := .field name (.compare none (toValue value))

/-- The field compares to the value by the operator that the token spells. -/
def compare (name operator : String) (value : α) : Condition :=
  .field name (.compare (some operator) (toValue value))

/-- The field differs from the value. -/
def ne (name : String) (value : α) : Condition := compare name "!" value

/-- The field is greater than the value. -/
def gt (name : String) (value : α) : Condition := compare name ">" value

/-- The field is greater than the value or equals it. -/
def gte (name : String) (value : α) : Condition := compare name ">=" value

/-- The field is less than the value. -/
def lt (name : String) (value : α) : Condition := compare name "<" value

/-- The field is less than the value or equals it. -/
def lte (name : String) (value : α) : Condition := compare name "<=" value

/-- The field lies between the two values, ends included. -/
def between (name : String) (low : α) (high : β) : Condition :=
  .field name (.between (toValue low) (toValue high))

/-- The field stands in the relation to the values. -/
def set (name : String) (relation : SetRelation) (values : List α) : Condition :=
  .field name (.oneOf relation (values.map toValue))

/-- The field is one of the values. -/
def inList (name : String) (values : List α) : Condition := set name .isIn values

/-- The field is none of the values. -/
def notInList (name : String) (values : List α) : Condition := set name .notIn values

/-- The field stands in the relation to the rows of the sub-statement. -/
def inSubquery (name : String) (relation : SetRelation) (query : Fragment) : Condition :=
  .field name (.inQuery relation query)

/-- The field matches the pattern, in which `%` stands for any text. -/
def like (name pattern : String) : Condition := .field name (.like (.text pattern))

/-- The field has the text somewhere. -/
def contains (name text : String) : Condition := like name ("%" ++ text ++ "%")

/-- The field begins with the text. -/
def startsWith (name text : String) : Condition := like name (text ++ "%")

/-- The field ends in the text. -/
def endsWith (name text : String) : Condition := like name ("%" ++ text)

/-- A group under the connective that its surroundings do not use. -/
def subgroup (children : List Condition) : Condition := .group none children

/-- A group under the given connective. -/
def groupWith (connective : Connective) (children : List Condition) : Condition :=
  .group (some connective) children

/-- The field equals an expression taken as it stands. -/
def rawEq (name : String) (expression : Fragment) : Condition := .field name (.equalsRaw expression)

/-- The field equals the value of the sub-statement. -/
def subqueryEq (name : String) (query : Fragment) : Condition := .field name (.equalsQuery query)

mutual

/-- Equality up to the spelling of values. -/
def same : Condition → Condition → Bool
  | .field name test, .field name' test' => name = name' && test.same test'
  | .group connective children, .group connective' children' =>
    connective = connective' && sameAll children children'
  | .raw piece, .raw piece' => piece.same piece'
  | .tree t, .tree t' => t.same t'
  | _, _ => false

/-- Equality of lists, one by one. -/
def sameAll : List Condition → List Condition → Bool
  | [], [] => true
  | c :: cs, d :: ds => c.same d && sameAll cs ds
  | _, _ => false

end

end Condition
end Criteria
