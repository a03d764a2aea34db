import Criteria.Text.Blank

/-! The relations between a field and a set of values. -/

namespace Criteria

/-- How a field stands to the members of a set. -/
inductive SetRelation where
  | isIn
  | notIn
  | any
  | some
  | all
deriving DecidableEq

namespace SetRelation

/-- The words by which a relation is written. -/
def words : SetRelation → String
  | .isIn => "IN"
  | .notIn => "NOT IN"
  | .any => "ANY"
  | .some => "SOME"
  | .all => "ALL"

/-- The relation that a keyword spells, whatever blanks stand around and between its words. -/
def ofKeyword? (keyword : String) : Option SetRelation :=
  match Text.phrase keyword with
  | "IN" => Option.some .isIn
  | "NOT IN" => Option.some .notIn
  | "ANY" => Option.some .any
  | "SOME" => Option.some .some
  | "ALL" => Option.some .all
  | _ => none

end SetRelation
end Criteria
