import Criteria.Dialect.Inline
import Criteria.Test

/-! Clause trees: criteria that were checked and can be rendered any number of times. Whatever is nested in
    a tree is already SQL text with its values, so a tree is a flat list of clauses. -/

namespace Criteria

/-- One member of a clause tree. -/
inductive Clause where
  /-- A test on a field. -/
  | field (name : String) (test : Test)
  /-- A nested part, already written out. -/
  | fragment (piece : Fragment)
deriving DecidableEq

namespace Clause

/-- The clause as a piece of SQL. -/
def toFragment : Clause → Fragment
  | .field name test => test.fragment name
  | .fragment piece => piece

/-- Equality up to the spelling of values. -/
def same : Clause → Clause → Bool
  | .field name test, .field name' test' => name = name' && test.same test'
  | .fragment piece, .fragment piece' => piece.same piece'
  | _, _ => false

end Clause

/-- Clauses and the connective between them. -/
structure Tree where
  connective : Connective := .and
  clauses : List Clause := []
deriving DecidableEq, Inhabited

namespace Tree

/-- The tree without clauses, which every row satisfies. -/
def empty : Tree := {}

/-- The number of clauses. -/
def size (t : Tree) : Nat := t.clauses.length

/-- Whether there are no clauses. -/
def isEmpty (t : Tree) : Bool := t.clauses.isEmpty

/-- Equality up to the spelling of values. -/
def same (t u : Tree) : Bool := t.connective = u.connective && t.clauses.isEqv u.clauses Clause.same

/-- The tree as a piece of SQL: its clauses between parentheses, or a tautology if there are none. -/
def toFragment (t : Tree) : Fragment :=
  if t.clauses.isEmpty then .ofText "(1=1)"
  else
    .ofText "(" ++ .join (" " ++ t.connective.word ++ " ") (t.clauses.map Clause.toFragment) ++ .ofText ")"

/-! ### Logged operations -/

/-- The tree as a part of a larger text. -/
def compile (t : Tree) : Logged Fragment := do
  .log (.compiled Dialect.generic.name)
  pure t.toFragment

/-- The SQL text of the tree and the values for its placeholders. -/
def build (t : Tree) : Logged Fragment := do
  let piece ← t.compile
  .log (.rendered piece.sql piece.params.length)
  pure piece

/-- The SQL text alone. -/
def render (t : Tree) : Logged String := do
  let piece ← t.build
  pure piece.sql

/-- The values for the placeholders alone, in their order. -/
def bindings (t : Tree) : Logged (List Value) := do
  let piece ← t.build
  pure piece.params

/-- The SQL text with literals in place of the placeholders, for logs and debugging. -/
def debugSql (t : Tree) : Logged String := do
  let piece ← t.build
  pure (inlined piece.sql piece.params)

theorem value_build (t : Tree) : t.build.value = t.toFragment := rfl

theorem value_render (t : Tree) : t.render.value = t.toFragment.sql := rfl

theorem value_bindings (t : Tree) : t.bindings.value = t.toFragment.params := rfl

end Tree
end Criteria
