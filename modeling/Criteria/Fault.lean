import Criteria.Decimal
import Criteria.Event

/-! What can be wrong with criteria. Faults are found while a document is read or a tree is built; a tree
    that was built can always be rendered. -/

namespace Criteria

/-- The kinds of document nodes that faults tell apart. -/
inductive Shape where
  | null
  | bool
  | largeInteger
  | number
  | string
  | array
  | object
deriving DecidableEq

namespace Shape

/-- The words for a kind of node. -/
def name : Shape → String
  | .null => "null"
  | .bool => "bool"
  | .largeInteger => "integer out of range"
  | .number => "number"
  | .string => "string"
  | .array => "array"
  | .object => "object"

end Shape

/-- What a modifier asks of its operand. -/
inductive Expected where
  | pair
  | pattern
  | scalars
  | scalar
deriving DecidableEq

namespace Expected

/-- The words for what is asked. -/
def name : Expected → String
  | .pair => "a pair of values"
  | .pattern => "a pattern"
  | .scalars => "scalar values"
  | .scalar => "a scalar value"

end Expected

/-- Why criteria are refused. -/
inductive Fault where
  /-- The root of a document is neither a group nor null. -/
  | invalidRoot (found : Shape)
  /-- The name of a field is blank. -/
  | emptyField
  /-- A group, given by its key or position, has no conditions. -/
  | emptyGroup (key : String)
  /-- The key of a group holds no group. -/
  | notAGroup (key : String) (found : Shape)
  /-- A modifier that needs a value has none. -/
  | missingOperand (field modifier : String)
  /-- The bounds of a range are not two. -/
  | betweenArity (field : String) (found : Nat)
  /-- A field has no modifier or several. -/
  | modifierCount (field : String) (found : Nat)
  /-- An operand has another shape than its modifier asks for. -/
  | invalidOperand (field modifier : String) (expected : Expected) (found : Shape)
deriving DecidableEq

namespace Fault

/-- The explanation for the author of the criteria. -/
def message : Fault → String
  | .invalidRoot found => "specification must be an object or an array, found " ++ found.name
  | .emptyField => "field name must not be empty"
  | .emptyGroup key => "group '" ++ key ++ "' has no conditions"
  | .notAGroup key found => "key '" ++ key ++ "' must hold a nested group, found " ++ found.name
  | .missingOperand field modifier => modifier ++ " on '" ++ field ++ "' requires at least one value"
  | .betweenArity field found =>
    "BETWEEN on '" ++ field ++ "' expects exactly two values, found " ++ Decimal.text found
  | .modifierCount field found =>
    "'" ++ field ++ "' expects exactly one modifier, found " ++ Decimal.text found
  | .invalidOperand field modifier expected found =>
    "'" ++ field ++ "': " ++ modifier ++ " expects " ++ expected.name ++ ", found " ++ found.name

end Fault

/-- A computation that can be refused; its events are kept either way. -/
abbrev Attempt := ExceptT Fault Logged

namespace Attempt

variable {α β : Type}

/-- The value, or the fault that ended the computation. -/
def outcome (x : Attempt α) : Except Fault α := x.run.value

/-- The events, up to the fault if there is one. -/
def events (x : Attempt α) : List Event := x.run.events

/-- Ends the computation. -/
def refuse (fault : Fault) : Attempt α := ExceptT.mk (pure (.error fault))

@[simp] theorem outcome_pure (a : α) : outcome (pure a) = .ok a := rfl

@[simp] theorem events_pure (a : α) : events (pure a : Attempt α) = [] := rfl

@[simp] theorem outcome_refuse (fault : Fault) : outcome (refuse fault : Attempt α) = .error fault := rfl

@[simp] theorem events_refuse (fault : Fault) : events (refuse fault : Attempt α) = [] := rfl

theorem outcome_bind (x : Attempt α) (f : α → Attempt β) :
    outcome (x >>= f) = x.outcome >>= fun a => (f a).outcome := by
  show (ExceptT.bindCont f x.run.value).value = _
  unfold outcome
  cases x.run.value <;> rfl

theorem events_bind (x : Attempt α) (f : α → Attempt β) :
    events (x >>= f) = x.events ++ (match x.outcome with | .ok a => (f a).events | .error _ => []) := by
  show x.run.events ++ (ExceptT.bindCont f x.run.value).events = _
  unfold outcome
  cases x.run.value <;> rfl

@[simp] theorem outcome_lift (x : Logged α) : outcome (ExceptT.lift x) = .ok x.value := rfl

@[simp] theorem events_lift (x : Logged α) : events (ExceptT.lift x) = x.events := by
  simp [events, ExceptT.lift, ExceptT.run, ExceptT.mk]

end Attempt
end Criteria
