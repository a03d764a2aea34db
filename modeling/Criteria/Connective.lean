import Criteria.Text.Blank

/-! The logical connectives that join the clauses of a group. -/

namespace Criteria

/-- The connective between the clauses of one group. -/
inductive Connective where
  | and
  | or
deriving DecidableEq

/-- Clauses are joined by AND unless something else is asked for. -/
instance : Inhabited Connective := ⟨.and⟩

namespace Connective

/-- The other connective. -/
def flip : Connective → Connective
  | .and => .or
  | .or => .and

@[simp] theorem flip_flip (s : Connective) : s.flip.flip = s := by cases s <;> rfl

/-- The word by which a connective is written. -/
def word : Connective → String
  | .and => "AND"
  | .or => "OR"

/-- The connective that a keyword spells. -/
def ofKeyword? (keyword : String) : Option Connective :=
  match Text.keyword keyword with
  | "AND" => some .and
  | "OR" => some .or
  | _ => none

end Connective
end Criteria
