import Criteria.Tree

/-! Statements, which have SQL text and values for its placeholders, and can so stand inside a condition. -/

namespace Criteria

/-- A type whose members have SQL text and the values for its placeholders, in their order. -/
class Statement (α : Type) where
  render : α → Logged String
  bindings : α → Logged (List Value)

namespace Statement

variable {α : Type} [Statement α]

/-- The statement as it is now: first its text is taken, then its values. -/
def snapshot (statement : α) : Logged Fragment := do
  let sql ← render statement
  let params ← bindings statement
  pure ⟨sql, params⟩

end Statement

instance : Statement Fragment where
  render piece := pure piece.sql
  bindings piece := pure piece.params

instance : Statement Tree where
  render := Tree.render
  bindings := Tree.bindings

/-- A statement that reads columns of a table under a filter. -/
structure Select where
  table : String
  columns : List String
  filter : Tree

instance : Statement Select where
  render select := do
    let condition ← select.filter.render
    pure ("SELECT " ++ ", ".intercalate select.columns ++ " FROM " ++ select.table ++ " WHERE " ++ condition)
  bindings select := select.filter.bindings

end Criteria
