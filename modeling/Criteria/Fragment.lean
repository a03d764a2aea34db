import Criteria.Value

/-! Pieces of SQL text with the values of their placeholders. Pieces are written one after the other, text
    after text and values after values, so every placeholder stays paired with its value. -/

namespace Criteria

/-- SQL text with the values of its placeholders, in the order of the placeholders. -/
structure Fragment where
  sql : String
  params : List Value
deriving DecidableEq, Inhabited

namespace Fragment

/-- Text without placeholders. -/
def ofText (sql : String) : Fragment := ⟨sql, []⟩

instance : Append Fragment := ⟨fun a b => ⟨a.sql ++ b.sql, a.params ++ b.params⟩⟩

@[simp] theorem sql_append (a b : Fragment) : (a ++ b).sql = a.sql ++ b.sql := rfl

@[simp] theorem params_append (a b : Fragment) : (a ++ b).params = a.params ++ b.params := rfl

@[simp] theorem sql_ofText (sql : String) : (ofText sql).sql = sql := rfl

@[simp] theorem params_ofText (sql : String) : (ofText sql).params = [] := rfl

theorem append_assoc (a b c : Fragment) : a ++ b ++ c = a ++ (b ++ c) := by
  show Fragment.mk _ _ = Fragment.mk _ _
  simp [String.append_assoc]

/-- The pieces in order, with `separator` between each two neighbours. -/
def join (separator : String) : List Fragment → Fragment
  | [] => ofText ""
  | [piece] => piece
  | piece :: rest => piece ++ ofText separator ++ join separator rest

/-- Equality of text and, value by value, of the bound values. -/
def same (a b : Fragment) : Bool := a.sql = b.sql && a.params.isEqv b.params Value.same

end Fragment
end Criteria
