import Criteria.Document
import Criteria.Modifier
import Criteria.Tree.Build

/-! The conditions that a document describes.

    The root and every nested group are objects or arrays. In an object a numeric key, AND and OR name
    nested groups and any other key names a field; the items of an array are nested groups. A field holds a
    scalar, an object of one modifier with its operand, a list of a modifier and its operand, or a list of
    which the first value counts. The first fault in document order is reported. -/

namespace Criteria

namespace Document

/-- The value at the first leaf of an operand. -/
def scalar (field modifier : String) (operand : Document) : Except Fault Value :=
  match operand.firstLeaf? with
  | none => .error (.missingOperand field modifier)
  | some leaf =>
    match leaf.toValue? with
    | some v => .ok v
    | none => .error (.invalidOperand field modifier .scalar leaf.shape)

/-- The value that a member of a set or range stands for. -/
def member (field modifier : String) (item : Document) : Except Fault Value :=
  match item.toValue? with
  | some v => .ok v
  | none => .error (.invalidOperand field modifier .scalars item.shape)

/-- The values of an array of scalars, or the one value of a scalar. -/
def members (field modifier : String) : Document → Except Fault (List Value)
  | .array items => items.mapM (member field modifier)
  | item => do
    let v ← member field modifier item
    pure [v]

/-- The two values of a range. -/
def bounds (field : String) (operand : Document) : Except Fault (Value × Value) :=
  match operand with
  | .array items => do
    match ← members field "BETWEEN" (.array items) with
    | [low, high] => pure (low, high)
    | _ => .error (.betweenArity field items.length)
  | other => .error (.invalidOperand field "BETWEEN" .pair other.shape)

/-! ### Fields -/

/-- The test that a modifier and its operand describe. -/
def modified (field token : String) (operand : Document) : Except Fault Test :=
  match Modifier.ofToken token with
  | .between => do
    let (low, high) ← bounds field operand
    pure (.between low high)
  | .set relation => do
    let values ← members field relation.words operand
    pure (.oneOf relation values)
  | .like =>
    match operand.toValue? with
    | some pattern => .ok (.like pattern)
    | none => .error (.invalidOperand field (Text.keyword token) .pattern operand.shape)
  | .comparison => do
    let v ← scalar field (Text.keyword token) operand
    pure (.compare (some token) v)

/-- The test that a list without a modifier describes: equality with its first value, which is marked by
    the position of that value as operator token. -/
def positional (field : String) (list : Document) : Except Fault Test := do
  let v ← scalar field "=" list
  pure (.compare (some "0") v)

/-- The test that the content of a field describes. -/
def fieldTest (field : String) : Document → Except Fault Test
  | .object [(token, operand)] => modified field token operand
  | .object entries => .error (.modifierCount field entries.length)
  | .array [.string token, operand] =>
    if Modifier.leadsList token then modified field token operand
    else positional field (.array [.string token, operand])
  | .array items => positional field (.array items)
  | item => do
    let v ← scalar field "=" item
    pure (.compare none v)

/-- The condition that a field and its content describe. -/
def fieldCondition (field : String) (content : Document) : Except Fault Condition :=
  if Text.isBlankText field then .error .emptyField
  else do
    let test ← fieldTest field content
    pure (.field field test)

/-! ### Groups -/

/-- What the key of an object names. -/
inductive KeyRole where
  /-- A nested group, with its connective if the key is one. -/
  | group (connective : Option Connective)
  | field
deriving DecidableEq

/-- The role of a key. -/
def keyRole (key : String) : KeyRole :=
  if Operator.isNumericToken key then .group none
  else
    match Connective.ofKeyword? key with
    | some connective => .group (some connective)
    | none => .field

/-- The group of the conditions found under `key`, of which there has to be one. -/
def nonempty (key : String) (connective : Option Connective) (children : List Condition) :
    Except Fault Condition :=
  if children.isEmpty then .error (.emptyGroup key) else .ok (.group connective children)

mutual

/-- The group that the content of `key` describes. -/
def group (key : String) (connective : Option Connective) : Document → Except Fault Condition
  | .object entries => do
    let children ← entryConditions entries
    nonempty key connective children
  | .array items => do
    let children ← itemConditions 0 items
    nonempty key connective children
  | other => .error (.notAGroup key other.shape)

/-- The conditions that the members of an object describe. -/
def entryConditions : List (String × Document) → Except Fault (List Condition)
  | [] => .ok []
  | (key, content) :: rest => do
    let condition ←
      match keyRole key with
      | .group connective => group key connective content
      | .field => fieldCondition key content
    let conditions ← entryConditions rest
    pure (condition :: conditions)

/-- The conditions that the items of an array describe, the first of which stands at `position`. -/
def itemConditions (position : Nat) : List Document → Except Fault (List Condition)
  | [] => .ok []
  | item :: rest => do
    let condition ← group (Decimal.text position) none item
    let conditions ← itemConditions (position + 1) rest
    pure (condition :: conditions)

end

/-- The conditions that a document describes; null describes none. -/
def conditions : Document → Except Fault (List Condition)
  | .null => .ok []
  | .object entries => entryConditions entries
  | .array items => itemConditions 0 items
  | other => .error (.invalidRoot other.shape)

end Document

/-- The tree that a document describes, its conditions joined by AND. -/
def Tree.ofDocument (document : Document) : Attempt Tree := do
  let conditions ← ExceptT.mk (pure document.conditions)
  Tree.ofConditions .and conditions

end Criteria
