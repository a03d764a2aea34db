import Criteria.Proofs.Reading
import Criteria.Proofs.Rebinding
import Mathlib.Data.List.Basic
import Mathlib.Logic.Equiv.Basic

/-! Strings as data. When the strings of a document are replaced, and different strings stay different and words that
    may head a list stay as they are, the same document is read, up to the values: the same faults are found, the same
    SQL is written, and the replaced strings turn up among the bound values only. -/

namespace Criteria

/-- A replacement of strings that keeps different strings apart and leaves alone what may head a list. -/
structure DataReplacement (s : String → String) : Prop where
  injective : Function.Injective s
  leads : ∀ token, Modifier.leadsList token = true → s token = token

/-- The value with its text replaced. -/
def Value.mapText (s : String → String) : Value → Value
  | .text t => .text (s t)
  | v => v

namespace Document

mutual

/-- The document with its strings replaced. The keys of objects are no strings here. -/
def mapStrings (s : String → String) : Document → Document
  | .null => .null
  | .bool b => .bool b
  | .number n => .number n
  | .string t => .string (s t)
  | .array items => .array (mapItems s items)
  | .object members => .object (mapMembers s members)

/-- The items with their strings replaced. -/
def mapItems (s : String → String) : List Document → List Document
  | [] => []
  | item :: rest => item.mapStrings s :: mapItems s rest

/-- The members with their strings replaced and their keys as they are. -/
def mapMembers (s : String → String) : List (String × Document) → List (String × Document)
  | [] => []
  | (key, content) :: rest => (key, content.mapStrings s) :: mapMembers s rest

end

theorem mapItems_eq_map (s : String → String) (items : List Document) : mapItems s items = items.map (mapStrings s) := by
  induction items with
  | nil => rfl
  | cons item rest ih => rw [mapItems, ih, List.map_cons]

theorem mapMembers_eq_map (s : String → String) (members : List (String × Document)) :
    mapMembers s members = members.map fun entry => (entry.1, entry.2.mapStrings s) := by
  induction members with
  | nil => rfl
  | cons entry rest ih => rw [mapMembers, ih, List.map_cons]

end Document

namespace DataReplacement
variable {s : String → String}

/-- What is data stays data: a string sent to a word that may head a list would be sent where that word stays. -/
theorem leadsList_eq (hs : DataReplacement s) (token : String) :
    Modifier.leadsList (s token) = Modifier.leadsList token := by
  by_cases h : Modifier.leadsList token = true
  · rw [hs.leads token h]
  · by_cases h' : Modifier.leadsList (s token) = true
    · have : s token = token := hs.injective (hs.leads (s token) h')
      rw [this]
    · rw [Bool.eq_false_iff.mpr h, Bool.eq_false_iff.mpr h']

/-- Different strings stay different, so no value is told from another one in a new way. -/
theorem faithful (hs : DataReplacement s) : Value.Faithful (Value.mapText s) where
  isNull v := by cases v <;> rfl
  same v w := by
    cases v <;> cases w <;> simp [Value.mapText, Value.same, hs.injective.eq_iff]

/-- Two strings that are data can be exchanged. -/
theorem swap {a b : String} (ha : Modifier.leadsList a = false) (hb : Modifier.leadsList b = false) :
    DataReplacement (Equiv.swap a b) where
  injective := (Equiv.swap a b).injective
  leads token h := by
    have hne : ∀ t, Modifier.leadsList t = false → token ≠ t := by
      rintro t ht rfl
      rw [h] at ht
      cases ht
    exact Equiv.swap_apply_of_ne_of_ne (hne a ha) (hne b hb)

end DataReplacement

namespace Document
variable (s : String → String) (field token : String) (d : Document)

theorem shape_mapStrings : (d.mapStrings s).shape = d.shape := by
  cases d with
  | number n => rfl
  | _ => rfl

theorem toValue?_mapStrings : (d.mapStrings s).toValue? = d.toValue?.map (Value.mapText s) := by
  cases d with
  | number n =>
    cases n with
    | integer n lower upper =>
      rw [mapStrings, toValue?]
      split <;> rfl
    | double x finite => rfl
  | _ => rfl

theorem firstLeaf?_mapStrings : (d.mapStrings s).firstLeaf? = d.firstLeaf?.map (mapStrings s) := by
  induction d with
  | array items ih =>
    cases items with
    | nil => rfl
    | cons item rest =>
      rw [mapStrings, mapItems, firstLeaf?, firstLeaf?]
      exact ih item List.mem_cons_self
  | _ => rfl

/-! ### Operands -/

/-- The value of an operand is found at the same leaf, and a fault shows no more of the leaf than its kind. -/
theorem scalar_mapStrings : scalar field token (d.mapStrings s) = (scalar field token d).map (Value.mapText s) := by
  rw [scalar, scalar, firstLeaf?_mapStrings]
  cases d.firstLeaf? with
  | none => rfl
  | some leaf =>
    simp only [Option.map_some, toValue?_mapStrings, shape_mapStrings]
    cases leaf.toValue? <;> rfl

theorem member_mapStrings : member field token (d.mapStrings s) = (member field token d).map (Value.mapText s) := by
  rw [member, member, toValue?_mapStrings, shape_mapStrings]
  cases d.toValue? <;> rfl

theorem members_mapStrings :
    members field token (d.mapStrings s) = (members field token d).map (List.map (Value.mapText s)) := by
  have h := member_mapStrings s field token d
  cases d with
  | array items =>
    rw [mapStrings, mapItems_eq_map]
    exact Outcome.mapM_map fun item _ => member_mapStrings s field token item
  | _ => exact Outcome.bind_pure_map h fun _ => rfl

theorem bounds_mapStrings : bounds field (d.mapStrings s) =
    (bounds field d).map (Prod.map (Value.mapText s) (Value.mapText s)) := by
  have h := members_mapStrings s field "BETWEEN" d
  cases d with
  | array items =>
    have hlength : (mapItems s items).length = items.length := by rw [mapItems_eq_map, List.length_map]
    rw [mapStrings] at h ⊢
    rw [bounds, bounds, h, hlength]
    cases members field "BETWEEN" (.array items) with
    | error fault => rfl
    | ok values =>
      match values with
      | [] => rfl
      | [_] => rfl
      | [_, _] => rfl
      | _ :: _ :: _ :: _ => rfl
  | _ => rfl

theorem modified_mapStrings :
    modified field token (d.mapStrings s) = (modified field token d).map (Test.mapValues (Value.mapText s)) := by
  unfold modified
  cases Modifier.ofToken token with
  | between =>
    simp only [bounds_mapStrings]
    cases bounds field d <;> rfl
  | set relation => exact Outcome.bind_pure_map (members_mapStrings s field relation.words d) fun _ => rfl
  | like =>
    simp only [toValue?_mapStrings, shape_mapStrings]
    cases d.toValue? <;> rfl
  | comparison => exact Outcome.bind_pure_map (scalar_mapStrings s field (Text.keyword token) d) fun _ => rfl

theorem positional_mapStrings :
    positional field (d.mapStrings s) = (positional field d).map (Test.mapValues (Value.mapText s)) :=
  Outcome.bind_pure_map (scalar_mapStrings s field "=" d) fun _ => rfl

/-- A pair headed by a string was one before the replacement. -/
theorem exists_pair_of_mapItems {items : List Document}
    (h : ∃ token operand, mapItems s items = [.string token, operand]) :
    ∃ token operand, items = [.string token, operand] := by
  obtain ⟨token, operand, h⟩ := h
  have hlength : items.length = 2 := by
    rw [← List.length_map (f := mapStrings s), ← mapItems_eq_map, h]
    rfl
  obtain ⟨item, operand, rfl⟩ := List.length_eq_two.mp hlength
  cases item with
  | string token => exact ⟨token, operand, rfl⟩
  | _ => cases h

/-- The content of a field is read in the same branch, so its test is the one before with its values replaced. -/
theorem fieldTest_mapStrings (hs : DataReplacement s) :
    fieldTest field (d.mapStrings s) = (fieldTest field d).map (Test.mapValues (Value.mapText s)) := by
  have hscalar := scalar_mapStrings s field "=" d
  have hdata := positional_mapStrings s field d
  cases d with
  | object entries =>
    match entries with
    | [] => rfl
    | [(token, operand)] => exact modified_mapStrings s field token operand
    | _ :: _ :: _ => simp [mapStrings, mapMembers_eq_map, fieldTest, Except.map]
  | array items =>
    by_cases hpair : ∃ token operand, items = [.string token, operand]
    · obtain ⟨token, operand, rfl⟩ := hpair
      simp only [mapStrings, mapItems, fieldTest, hs.leadsList_eq]
      split
      · -- The token heads the list, so the replacement leaves it as it is.
        rw [hs.leads token ‹_›]
        exact modified_mapStrings s field token operand
      · exact hdata
    · rw [mapStrings] at hdata ⊢
      rw [fieldTest_eq_positional hpair, fieldTest_eq_positional (mt (exists_pair_of_mapItems s) hpair)]
      exact hdata
  | _ => exact Outcome.bind_pure_map hscalar fun _ => rfl

theorem fieldCondition_mapStrings (hs : DataReplacement s) : fieldCondition field (d.mapStrings s) =
    (fieldCondition field d).map (Condition.mapValues (Value.mapText s)) := by
  rw [fieldCondition, fieldCondition, fieldTest_mapStrings s field d hs]
  split
  · rfl
  · cases fieldTest field d <;> rfl

/-! ### Groups -/

/-- Reading the document as a group commutes with the replacement. -/
def GroupCommutes : Prop :=
  ∀ key connective, group key connective (d.mapStrings s) =
    (group key connective d).map (Condition.mapValues (Value.mapText s))

theorem nonempty_mapValues (key : String) (connective : Option Connective) (children : List Condition) (f : Value → Value) :
    nonempty key connective (children.map (Condition.mapValues f)) =
      (nonempty key connective children).map (Condition.mapValues f) := by
  rw [nonempty, nonempty, List.isEmpty_map]
  split
  · rfl
  · rw [Except.map, Condition.mapValues, Condition.mapValuesEach_eq_map]

/-- Keys are not replaced, so an entry stays a group or a field. -/
theorem entryCondition_mapStrings (hs : DataReplacement s) {entry : String × Document}
    (h : GroupCommutes s entry.2) : entryCondition (entry.1, entry.2.mapStrings s) =
      (entryCondition entry).map (Condition.mapValues (Value.mapText s)) := by
  unfold entryCondition
  cases keyRole entry.1 with
  | group connective => exact h entry.1 connective
  | field => exact fieldCondition_mapStrings s entry.1 entry.2 hs

theorem entryConditions_mapStrings (hs : DataReplacement s) {entries : List (String × Document)}
    (h : ∀ entry ∈ entries, GroupCommutes s entry.2) : entryConditions (mapMembers s entries) =
      (entryConditions entries).map (List.map (Condition.mapValues (Value.mapText s))) := by
  rw [entryConditions_eq_mapM, entryConditions_eq_mapM, mapMembers_eq_map]
  exact Outcome.mapM_map fun entry hentry => entryCondition_mapStrings s hs (h entry hentry)

theorem itemConditions_mapStrings {items : List Document} (h : ∀ item ∈ items, GroupCommutes s item) (position : Nat) :
    itemConditions position (mapItems s items) =
      (itemConditions position items).map (List.map (Condition.mapValues (Value.mapText s))) := by
  rw [itemConditions_eq_mapM, itemConditions_eq_mapM, mapItems_eq_map, List.zipIdx_map]
  exact Outcome.mapM_map fun item hitem => h item.1 (List.fst_mem_of_mem_zipIdx hitem) _ _

/-- By induction on the nesting of the document. -/
theorem groupCommutes (hs : DataReplacement s) : GroupCommutes s d := by
  induction d with
  | array items ih =>
    intro key connective
    rw [mapStrings, group, group, itemConditions_mapStrings s ih]
    cases itemConditions 0 items with
    | error fault => rfl
    | ok children => exact nonempty_mapValues key connective children (Value.mapText s)
  | object entries ih =>
    intro key connective
    rw [mapStrings, group, group, entryConditions_mapStrings s hs ih]
    cases entryConditions entries with
    | error fault => rfl
    | ok children => exact nonempty_mapValues key connective children (Value.mapText s)
  | _ =>
    intro key connective
    rfl

/-- The conditions of the document are those before with their values replaced, or the fault is the same. -/
theorem conditions_mapStrings (hs : DataReplacement s) : (d.mapStrings s).conditions =
    d.conditions.map (List.map (Condition.mapValues (Value.mapText s))) := by
  cases d with
  | array items => exact itemConditions_mapStrings s (fun item _ => groupCommutes s item hs) 0
  | object entries => exact entryConditions_mapStrings s hs fun entry _ => groupCommutes s entry.2 hs
  | _ => rfl

end Document

namespace Tree

theorem outcome_ofDocument_mapStrings {s : String → String} (hs : DataReplacement s) (d : Document) :
    (ofDocument (d.mapStrings s)).outcome = (ofDocument d).outcome.map (Tree.mapValues (Value.mapText s)) := by
  rw [outcome_ofDocument, outcome_ofDocument, Document.conditions_mapStrings s d hs]
  cases d.conditions with
  | error fault => rfl
  | ok cs => exact outcome_ofConditions_mapValues hs.faithful .and cs

/-- The strings of a document cannot influence the SQL: what is refused is refused for the same reason, and what is
    not has the same text, with the replaced strings among its values. -/
theorem ofDocument_mapStrings {s : String → String} (hs : DataReplacement s) (d : Document) :
    (∀ t, (ofDocument d).outcome = .ok t → ∃ t', (ofDocument (d.mapStrings s)).outcome = .ok t' ∧
      t'.build.value.sql = t.build.value.sql ∧
      t'.build.value.params = t.build.value.params.map (Value.mapText s)) ∧
    ∀ fault, (ofDocument d).outcome = .error fault → (ofDocument (d.mapStrings s)).outcome = .error fault := by
  rw [outcome_ofDocument_mapStrings hs]
  constructor
  · intro t ht
    refine ⟨t.mapValues (Value.mapText s), by rw [ht]; rfl, ?_⟩
    rw [value_build, value_build, toFragment_mapValues hs.faithful]
    exact ⟨rfl, rfl⟩
  · intro fault hfault
    rw [hfault]
    rfl

theorem ofDocument_mapStrings_swap :
    ∃ d t t', d = Document.object [
        ("name", .object [("NOT IN", .array [.string "x", .null, .string "'", .string "x"])]),
        ("or", .array [
          .object [("a", .array [.string "x", .string "="])],
          .object [("b", .array [.string "=", .array [.string "x"]])]])] ∧
      (ofDocument d).outcome = .ok t ∧
      (ofDocument (d.mapStrings (Equiv.swap "x" "'"))).outcome = .ok t' ∧
      t'.build.value.sql = t.build.value.sql ∧
      t'.build.value.params = t.build.value.params.map (Value.mapText (Equiv.swap "x" "'")) := by
  have hs : DataReplacement (Equiv.swap "x" "'") := .swap (by decide +kernel) (by decide +kernel)
  have ht : (ofDocument (Document.object [
        ("name", .object [("NOT IN", .array [.string "x", .null, .string "'", .string "x"])]),
        ("or", .array [
          .object [("a", .array [.string "x", .string "="])],
          .object [("b", .array [.string "=", .array [.string "x"]])]])])).outcome = .ok ⟨.and, [
      .field "name" (.oneOf .notIn [.text "x", .null, .text "'", .text "x"]),
      .fragment ⟨"((a = ?) OR (b = ?))", [.text "x", .text "x"]⟩]⟩ := by decide +kernel
  obtain ⟨t', h⟩ := (ofDocument_mapStrings hs _).1 _ ht
  exact ⟨_, _, t', rfl, ht, h⟩

end Tree
end Criteria
