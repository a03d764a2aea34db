import Criteria.Binary64

/-! Scalar values of a database column, the equality by which repeated values are dropped from a list, and
    the types whose members are such values. -/

namespace Criteria

/-- A scalar value that can be bound to a placeholder. -/
inductive Value where
  | null
  | bool (b : Bool)
  | int (n : Int64)
  | float (x : Binary64)
  | text (s : String)
  | blob (bytes : List UInt8)
deriving DecidableEq, Inhabited

namespace Value

/-- Whether the value is null. -/
def isNull : Value → Bool
  | .null => true
  | _ => false

@[simp] theorem isNull_iff {v : Value} : v.isNull = true ↔ v = .null := by
  cases v <;> simp [isNull]

/-- Equality of values as a database sees it: numbers by their numeric value within one kind, all else
    exactly. It is not reflexive, because what is no number equals nothing. -/
def same : Value → Value → Bool
  | .float x, .float y => x.same y
  | v, w => v = w

theorem same_comm (v w : Value) : v.same w = w.same v := by
  cases v <;> cases w <;> simp [same, Binary64.same_comm, eq_comm]

/-- The values that are the same as none of `kept` and none before them, in order. -/
def freshAfter (kept : List Value) : List Value → List Value
  | [] => []
  | v :: rest =>
    if kept.any (·.same v) then freshAfter kept rest else v :: freshAfter (kept ++ [v]) rest

/-- The values without repetitions, each in the place and spelling of its first occurrence. -/
def distinct (values : List Value) : List Value := freshAfter [] values

end Value

/-- A type whose members are values. -/
class ToValue (α : Type) where
  toValue : α → Value

export ToValue (toValue)

instance : ToValue Value := ⟨id⟩
instance : ToValue Bool := ⟨.bool⟩
instance : ToValue Int64 := ⟨.int⟩
instance : ToValue Int32 := ⟨fun n => .int n.toInt64⟩
instance : ToValue Int16 := ⟨fun n => .int n.toInt64⟩
instance : ToValue UInt32 := ⟨fun n => .int n.toUInt64.toInt64⟩
instance : ToValue UInt16 := ⟨fun n => .int n.toUInt64.toInt64⟩
instance : ToValue UInt8 := ⟨fun n => .int n.toUInt64.toInt64⟩
instance : ToValue Binary64 := ⟨.float⟩
instance : ToValue Binary32 := ⟨fun x => .float x.widen⟩
instance : ToValue String := ⟨.text⟩
instance : ToValue (List UInt8) := ⟨.blob⟩

/-- An absent member is null. -/
instance {α : Type} [ToValue α] : ToValue (Option α) where
  toValue
    | none => .null
    | some a => toValue a

end Criteria
