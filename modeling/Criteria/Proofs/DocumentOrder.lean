import Criteria.Proofs.Grammar

/-! Document order. The fields of a document come one after the other, those of a nested group in the place of the
    group. The conditions that are read from a document keep this order and the nesting, and leave out nothing. -/

namespace Criteria
namespace Document

instance (key : String) : Decidable (GroupKey key) :=
  inferInstanceAs (Decidable (Operator.isNumericToken key = true ∨ Text.keyword key = "AND" ∨ Text.keyword key = "OR"))

mutual

/-- The fields of a group with their contents, nested ones included, in document order. -/
def fields : Document → List (String × Document)
  | .object entries => entryFields entries
  | .array items => itemFields items
  | .null => []
  | .bool _ => []
  | .number _ => []
  | .string _ => []

/-- The fields of the entries in turn. The content of a group is looked into, that of a field is not. -/
def entryFields : List (String × Document) → List (String × Document)
  | [] => []
  | (key, content) :: rest => (if GroupKey key then content.fields else [(key, content)]) ++ entryFields rest

/-- The fields of the items of an array in turn. Each item is a group of its own. -/
def itemFields : List Document → List (String × Document)
  | [] => []
  | item :: rest => item.fields ++ itemFields rest

end

theorem entryFields_group {key : String} {content : Document} {rest : List (String × Document)} (h : GroupKey key) :
    entryFields ((key, content) :: rest) = content.fields ++ entryFields rest := by
  rw [entryFields, if_pos h]

theorem entryFields_field {key : String} {content : Document} {rest : List (String × Document)} (h : ¬GroupKey key) :
    entryFields ((key, content) :: rest) = (key, content) :: entryFields rest := by
  rw [entryFields, if_neg h, List.singleton_append]

/-- The conditions are tests that are read from the fields, one for each in their order, in groups that have members. -/
inductive ReadAs : List (String × Document) → List Condition → Prop
  | nil : ReadAs [] []
  | field {key : String} {content : Document} {test : Test} {rest : List (String × Document)} {cs : List Condition} :
      Text.trim key ≠ "" → fieldTest key content = .ok test → ReadAs rest cs →
      ReadAs ((key, content) :: rest) (.field key test :: cs)
  | group {inner rest : List (String × Document)} {connective : Option Connective} {children cs : List Condition} :
      children ≠ [] → ReadAs inner children → ReadAs rest cs →
      ReadAs (inner ++ rest) (.group connective children :: cs)

theorem readAs_entries {entries : List (String × Document)}
    (ih : ∀ entry ∈ entries, ∀ {cs}, entry.2.conditions = .ok cs → ReadAs entry.2.fields cs) {cs : List Condition}
    (h : entries.mapM entryCondition = .ok cs) : ReadAs (entryFields entries) cs := by
  induction entries generalizing cs with
  | nil =>
    cases h
    exact .nil
  | cons entry rest ihrest =>
    obtain ⟨key, content⟩ := entry
    obtain ⟨hcontent, hrest⟩ := List.forall_mem_cons.mp ih
    obtain ⟨c, cs', hc, hcs', rfl⟩ := Outcome.mapM_cons_eq_ok.mp h
    have htail : ReadAs (entryFields rest) cs' := ihrest hrest hcs'
    rcases keyRole_cases key with ⟨hkey, connective, hrole⟩ | ⟨hkey, hrole⟩
    · rw [entryCondition, hrole] at hc
      obtain ⟨children, hchildren, hne, rfl⟩ := group_eq_ok hc
      rw [entryFields_group hkey]
      exact .group hne (hcontent hchildren) htail
    · rw [entryCondition, hrole] at hc
      -- The field was read, so it has a name.
      have hname : Text.trim key ≠ "" := (isOk_fieldCondition.mp (Outcome.isOk_iff.mpr ⟨c, hc⟩)).1
      obtain ⟨test, htest, rfl⟩ := fieldCondition_eq_ok hc
      rw [entryFields_field hkey]
      exact .field hname htest htail

theorem readAs_items {items : List Document}
    (ih : ∀ item ∈ items, ∀ {cs}, item.conditions = .ok cs → ReadAs item.fields cs) {position : Nat}
    {cs : List Condition} (h : itemConditions position items = .ok cs) : ReadAs (itemFields items) cs := by
  induction items generalizing position cs with
  | nil =>
    cases h
    exact .nil
  | cons item rest ihrest =>
    obtain ⟨hitem, hrest⟩ := List.forall_mem_cons.mp ih
    obtain ⟨c, cs', hc, hcs', rfl⟩ := Outcome.bind_cons_eq_ok.mp h
    obtain ⟨children, hchildren, hne, rfl⟩ := group_eq_ok hc
    exact .group hne (hitem hchildren) (ihrest hrest hcs')

/-- The conditions of a document are read from its fields in document order. -/
theorem readAs_conditions {d : Document} {cs : List Condition} (h : d.conditions = .ok cs) : ReadAs d.fields cs := by
  induction d generalizing cs with
  | null =>
    cases h
    exact .nil
  | object entries ih =>
    rw [conditions, entryConditions_eq_mapM] at h
    exact readAs_entries ih h
  | array items ih => exact readAs_items ih h
  | _ => cases h

end Document
end Criteria
