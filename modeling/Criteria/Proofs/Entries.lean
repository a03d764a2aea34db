import Criteria.Proofs.DocumentOrder
import Criteria.Proofs.GroupKey

/-! The entries of a group. An item of an array is read as a member of an object is whose key is the position of the
    item, so arrays and objects alike are lists of entries and are read entry by entry. -/

namespace Criteria
namespace Document

/-- The entries of an array or an object with their keys. The key of an item is its position. -/
def entries : Document → List (String × Document)
  | .array items => items.zipIdx.map fun item => (Decimal.text item.2, item.1)
  | .object members => members
  | _ => []

/-- An array or an object, as every group is. -/
inductive IsGroup : Document → Prop
  | array {items : List Document} : IsGroup (.array items)
  | object {members : List (String × Document)} : IsGroup (.object members)

variable {d : Document}

theorem isEmpty_iff : d.IsEmpty ↔ d.IsGroup ∧ d.entries = [] := by
  cases d with
  | array items => simp [IsEmpty, entries, IsGroup.array]
  | object members => simp [IsEmpty, entries, IsGroup.object]
  | _ =>
    constructor
    · rintro (h | h) <;> cases h
    · rintro ⟨h, -⟩
      cases h

/-- What holds of a document if it holds of the contents of its entries holds of every document. -/
theorem entries_induction {motive : Document → Prop}
    (step : ∀ d, (∀ entry ∈ d.entries, motive entry.2) → motive d) (d : Document) : motive d := by
  induction d with
  | array items ih =>
    refine step _ fun entry hentry => ?_
    obtain ⟨item, hitem, rfl⟩ := List.mem_map.mp hentry
    exact ih item.1 (List.fst_mem_of_mem_zipIdx hitem)
  | object members ih => exact step _ ih
  | _ => exact step _ nofun

theorem groupKey_position (n : Nat) : GroupKey (Decimal.text n) := groupKey_isGroupKey n none

theorem entryCondition_position (n : Nat) (item : Document) :
    entryCondition (Decimal.text n, item) = group (Decimal.text n) none item := by
  have hrole : keyRole (Decimal.text n) = .group none := keyRole_groupKey n none
  rw [entryCondition, hrole]

theorem entryCondition_of_groupKey {key : String} (h : GroupKey key) (content : Document) :
    ∃ connective, entryCondition (key, content) = group key connective content := by
  rcases keyRole_cases key with ⟨-, connective, hrole⟩ | ⟨hkey, -⟩
  · exact ⟨connective, by rw [entryCondition, hrole]⟩
  · exact absurd h hkey

theorem entryCondition_of_not_groupKey {key : String} {content : Document} (h : ¬GroupKey key) :
    entryCondition (key, content) = fieldCondition key content := by
  rw [entryCondition, keyRole_of_not_groupKey h]

/-- An entry at a name that is no key of a group is the field of this name. -/
theorem entryCondition_of_fieldTest {key : String} {content : Document} {test : Test} (hname : Text.trim key ≠ "")
    (hkey : ¬GroupKey key) (h : fieldTest key content = .ok test) :
    entryCondition (key, content) = .ok (.field key test) := by
  have hblank : Text.isBlankText key = false := Text.isBlankText_eq_false_iff.mpr hname
  rw [entryCondition_of_not_groupKey hkey, fieldCondition, hblank, h]
  rfl

theorem conditions_eq_mapM (h : d.IsGroup) : d.conditions = d.entries.mapM entryCondition := by
  cases h with
  | @array items =>
    have hitem : itemCondition = entryCondition ∘ fun item : Document × Nat => (Decimal.text item.2, item.1) :=
      funext fun item => (entryCondition_position item.2 item.1).symm
    rw [conditions, itemConditions_eq_mapM, hitem, entries, List.mapM_map]
  | object => exact entryConditions_eq_mapM _

/-- A group is read as the document is, and then needs an entry. -/
theorem group_eq_bind (h : d.IsGroup) (key : String) (connective : Option Connective) :
    group key connective d = d.conditions >>= nonempty key connective := by
  cases h <;> rfl

theorem group_eq_notAGroup (h : ¬d.IsGroup) (key : String) (connective : Option Connective) :
    group key connective d = .error (.notAGroup key d.shape) := by
  cases d with
  | array items => exact absurd .array h
  | object members => exact absurd .object h
  | _ => rfl

theorem itemFields_eq_flatMap (items : List Document) (position : Nat) :
    itemFields items = ((items.zipIdx position).map fun item => (Decimal.text item.2, item.1)).flatMap fun entry =>
      if GroupKey entry.1 then entry.2.fields else [entry] := by
  induction items generalizing position with
  | nil => rfl
  | cons item rest ih =>
    rw [itemFields, List.zipIdx_cons, List.map_cons, List.flatMap_cons, if_pos (groupKey_position position), ← ih]

theorem entryFields_eq_flatMap (members : List (String × Document)) :
    entryFields members = members.flatMap fun entry => if GroupKey entry.1 then entry.2.fields else [entry] := by
  induction members with
  | nil => rfl
  | cons entry rest ih => rw [entryFields, List.flatMap_cons, ih]

/-- The fields of a document are those of its groups and its own, in the order of its entries. -/
theorem fields_eq_flatMap (d : Document) :
    d.fields = d.entries.flatMap fun entry => if GroupKey entry.1 then entry.2.fields else [entry] := by
  cases d with
  | array items => exact itemFields_eq_flatMap items 0
  | object members => exact entryFields_eq_flatMap members
  | _ => rfl

end Document
end Criteria
