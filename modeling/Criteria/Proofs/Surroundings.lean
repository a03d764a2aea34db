import Criteria.Proofs.Entries
import Criteria.Proofs.Interchange

/-! One entry of a document left open. The entry stands in the root or in a group at any depth, and the entries around it
    are read by themselves. So what surrounds an entry is read as what surrounds its condition, and the faults in front
    of the entry and behind it do not depend on it. -/

namespace Criteria
namespace Document

/-- A document in which one entry is left open, in an object that is the root or a group. Groups stand at the keys of
    groups in objects, and in arrays. -/
inductive Surroundings where
  | entry (before after : List (String × Document))
  | member (before : List (String × Document)) (key : String) (connective : Option Connective)
      (role : keyRole key = .group connective) (inner : Surroundings) (after : List (String × Document))
  | item (before : List Document) (inner : Surroundings) (after : List Document)

namespace Surroundings

/-- The document with an entry in the open place. -/
def fill (entry : String × Document) : Surroundings → Document
  | .entry before after => .object (before ++ entry :: after)
  | .member before key _ _ inner after => .object (before ++ (key, inner.fill entry) :: after)
  | .item before inner after => .array (before ++ inner.fill entry :: after)

/-- The conditions around the open place, with a place left open for the condition of the entry. -/
def conditions : Surroundings → Except Fault Condition.Surroundings
  | .entry before after => do
    let front ← before.mapM entryCondition
    let back ← after.mapM entryCondition
    pure (.list front back)
  | .member before _ connective _ inner after => do
    let front ← before.mapM entryCondition
    let inside ← inner.conditions
    let back ← after.mapM entryCondition
    pure (.group front connective inside back)
  | .item before inner after => do
    let front ← before.zipIdx.mapM itemCondition
    let inside ← inner.conditions
    let back ← (after.zipIdx (before.length + 1)).mapM itemCondition
    pure (.group front none inside back)

theorem isGroup_fill (K : Surroundings) (entry : String × Document) : (K.fill entry).IsGroup := by
  cases K with
  | entry => exact .object
  | member => exact .object
  | item => exact .array

variable {K : Surroundings} {entry : String × Document} {c : Condition}

theorem group_fill (h : (K.fill entry).conditions = K.conditions.map (·.fill c)) (key : String)
    (connective : Option Connective) :
    group key connective (K.fill entry) = K.conditions.map fun inside => .group connective (inside.fill c) := by
  rw [group_eq_bind (K.isGroup_fill entry), h]
  cases K.conditions with
  | error fault => rfl
  | ok inside =>
    have hne : inside.fill c ≠ [] := List.isEmpty_eq_false_iff.mp (inside.isEmpty_fill c)
    exact nonempty_eq_ok.mpr ⟨hne, rfl⟩

/-- A document is read entry by entry, so filling the open place fills the place among the conditions. -/
theorem conditions_fill (h : entryCondition entry = .ok c) : (K.fill entry).conditions = K.conditions.map (·.fill c) := by
  -- On each level the entries in front come first, then the open one, which raises no fault of its own, then the rest.
  induction K with
  | entry before after =>
    rw [fill, Document.conditions, entryConditions_eq_mapM, Outcome.mapM_append_cons, h, conditions]
    cases before.mapM entryCondition with
    | error fault => rfl
    | ok front => cases after.mapM entryCondition <;> rfl
  | member before key connective role inner after ih =>
    have hmember : entryCondition (key, inner.fill entry) =
        inner.conditions.map fun inside => .group connective (inside.fill c) := by
      rw [entryCondition, role]
      exact group_fill ih key connective
    rw [fill, Document.conditions, entryConditions_eq_mapM, Outcome.mapM_append_cons, hmember, conditions]
    cases before.mapM entryCondition with
    | error fault => rfl
    | ok front =>
      cases inner.conditions with
      | error fault => rfl
      | ok inside => cases after.mapM entryCondition <;> rfl
  | item before inner after ih =>
    have hitem : itemCondition (inner.fill entry, before.length) =
        inner.conditions.map fun inside => .group none (inside.fill c) :=
      group_fill ih (Decimal.text before.length) none
    rw [fill, Document.conditions, itemConditions_eq_mapM, List.zipIdx_append, List.zipIdx_cons, Nat.zero_add,
      Outcome.mapM_append_cons, hitem, conditions]
    cases before.zipIdx.mapM itemCondition with
    | error fault => rfl
    | ok front =>
      cases inner.conditions with
      | error fault => rfl
      | ok inside => cases (after.zipIdx (before.length + 1)).mapM itemCondition <;> rfl

/-- Entries that are read alike can stand for each other at any place. -/
theorem conditions_fill_congr {other : String × Document} (h : entryCondition entry = entryCondition other)
    (K : Surroundings) : (K.fill entry).conditions = (K.fill other).conditions := by
  have hgroup : ∀ inner : Surroundings, (inner.fill entry).conditions = (inner.fill other).conditions →
      ∀ key connective, group key connective (inner.fill entry) = group key connective (inner.fill other) := by
    intro inner hinner key connective
    rw [group_eq_bind (inner.isGroup_fill entry), group_eq_bind (inner.isGroup_fill other), hinner]
  induction K with
  | entry before after =>
    rw [fill, fill, Document.conditions, Document.conditions, entryConditions_eq_mapM, entryConditions_eq_mapM,
      Outcome.mapM_append_cons, Outcome.mapM_append_cons, h]
  | member before key connective role inner after ih =>
    have hmember : entryCondition (key, inner.fill entry) = entryCondition (key, inner.fill other) := by
      rw [entryCondition, entryCondition, role]
      exact hgroup inner ih key connective
    rw [fill, fill, Document.conditions, Document.conditions, entryConditions_eq_mapM, entryConditions_eq_mapM,
      Outcome.mapM_append_cons, Outcome.mapM_append_cons, hmember]
  | item before inner after ih =>
    have hitem : itemCondition (inner.fill entry, before.length) = itemCondition (inner.fill other, before.length) :=
      hgroup inner ih (Decimal.text before.length) none
    rw [fill, fill, Document.conditions, Document.conditions, itemConditions_eq_mapM, itemConditions_eq_mapM,
      List.zipIdx_append, List.zipIdx_append, List.zipIdx_cons, List.zipIdx_cons, Nat.zero_add, Outcome.mapM_append_cons,
      Outcome.mapM_append_cons, hitem]

end Surroundings
end Document

theorem Tree.outcome_ofDocument_fill {K : Document.Surroundings} {entry : String × Document} {c : Condition}
    (h : Document.entryCondition entry = .ok c) : (ofDocument (K.fill entry)).outcome =
      K.conditions >>= fun surroundings => (ofConditions .and (surroundings.fill c)).outcome := by
  rw [outcome_ofDocument, Document.Surroundings.conditions_fill h]
  cases K.conditions <;> rfl

end Criteria
