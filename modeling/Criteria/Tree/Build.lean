import Criteria.Condition

/-! Building a clause tree from conditions. The conditions are checked from left to right, nested ones
    where they stand, and the first fault ends the building. Nested parts are written out on the way, each
    under its own connective. -/

namespace Criteria

/-- The clauses as a tree, which is an event. -/
def Tree.ofClauses (connective : Connective) (clauses : List Clause) : Logged Tree := do
  .log (.built clauses.length connective)
  pure ⟨connective, clauses⟩

namespace Condition

/-- A test on a field, if the field has a name and the test suits it. -/
def checkedField (name : String) (test : Test) : Attempt Clause :=
  if Text.isBlankText name then .refuse .emptyField
  else
    match test.fault? name with
    | some fault => .refuse fault
    | none => pure (.field name test)

mutual

/-- The clause for a condition that stands at `position` in a list joined by `parent`. -/
def resolve (parent : Connective) (position : Nat) : Condition → Attempt Clause
  | .field name test => checkedField name test
  | .group connective children =>
    if children.isEmpty then .refuse (.emptyGroup (Decimal.text position))
    else do
      let connective := connective.getD parent.flip
      let clauses ← resolveAll connective 0 children
      let nested ← ExceptT.lift (Tree.ofClauses connective clauses)
      let piece ← ExceptT.lift nested.compile
      pure (.fragment piece)
  | .raw piece => pure (.fragment piece)
  | .tree t => do
    let piece ← ExceptT.lift t.compile
    pure (.fragment piece)

/-- The clauses for conditions that stand at `position` and after it in a list joined by `parent`. -/
def resolveAll (parent : Connective) (position : Nat) : List Condition → Attempt (List Clause)
  | [] => pure []
  | condition :: rest => do
    let clause ← condition.resolve parent position
    let clauses ← resolveAll parent (position + 1) rest
    pure (clause :: clauses)

end

end Condition

/-- The tree that joins the conditions by `connective`. -/
def Tree.ofConditions (connective : Connective) (conditions : List Condition) : Attempt Tree := do
  let clauses ← Condition.resolveAll connective 0 conditions
  ExceptT.lift (Tree.ofClauses connective clauses)

end Criteria
