import Criteria.Document.Conditions
import Criteria.Proofs.Outcome

/-! Reading a document, step by step. Objects and arrays are read entry by entry, each entry gives one condition or
    ends the reading, and a group needs an entry. -/

namespace Criteria

namespace Document

/-! ### Induction

Documents nest through lists, so the induction over an array speaks of its items and that over an object of the
contents of its members. -/

@[elab_as_elim, induction_eliminator]
theorem nesting {motive : Document → Prop} (null : motive .null) (bool : ∀ b, motive (.bool b))
    (number : ∀ n, motive (.number n)) (string : ∀ s, motive (.string s))
    (array : ∀ items, (∀ item ∈ items, motive item) → motive (.array items))
    (object : ∀ members, (∀ entry ∈ members, motive entry.2) → motive (.object members)) : ∀ d, motive d
  | .null => null
  | .bool b => bool b
  | .number n => number n
  | .string s => string s
  | .array items => array items fun item _ => nesting null bool number string array object item
  | .object members => object members fun entry _ => nesting null bool number string array object entry.2
decreasing_by
  · have := List.sizeOf_lt_of_mem ‹item ∈ items›
    simp only [Document.array.sizeOf_spec]
    omega
  · have := List.sizeOf_lt_of_mem ‹entry ∈ members›
    cases entry
    simp only [Document.object.sizeOf_spec, Prod.mk.sizeOf_spec] at this ⊢
    omega

theorem scalar_of_firstLeaf? {operand leaf : Document} {v : Value} (hleaf : operand.firstLeaf? = some leaf)
    (h : leaf.toValue? = some v) (field modifier : String) : scalar field modifier operand = .ok v := by
  simp only [scalar, hleaf, h]

section
variable {d : Document} {v : Value} (h : d.toValue? = some v)
include h

theorem firstLeaf?_of_toValue? : d.firstLeaf? = some d := by
  cases d with
  | array items => cases h
  | _ => rfl

theorem scalar_of_toValue? (field modifier : String) : scalar field modifier d = .ok v :=
  scalar_of_firstLeaf? (firstLeaf?_of_toValue? h) h field modifier

theorem member_of_toValue? (field modifier : String) : member field modifier d = .ok v := by
  simp only [member, h]

/-- A value by itself is a set of one. -/
theorem members_of_toValue? (field modifier : String) : members field modifier d = .ok [v] := by
  rw [members, member_of_toValue? h]
  · rfl
  · rintro items rfl
    cases h

theorem fieldTest_of_toValue? (field : String) : fieldTest field d = .ok (.compare none v) := by
  have hscalar := scalar_of_toValue? h field "="
  cases d with
  | array items => cases h
  | object members => cases h
  | _ =>
    rw [fieldTest, hscalar]
    · rfl
    all_goals nofun

end

/-- A list that is no text with an operand is read for its first value. -/
theorem fieldTest_eq_positional {field : String} {items : List Document}
    (h : ¬∃ token operand, items = [.string token, operand]) :
    fieldTest field (.array items) = positional field (.array items) := by
  rw [fieldTest]
  rintro token operand ⟨rfl⟩
  exact h ⟨token, operand, rfl⟩

/-- A list that no modifier heads is data. -/
theorem fieldTest_of_data {field : String} {items : List Document}
    (h : ∀ token operand, items = [.string token, operand] → Modifier.leadsList token = false) :
    fieldTest field (.array items) = positional field (.array items) := by
  -- Only a pair that starts with a text is asked whether it is headed by a modifier.
  by_cases hpair : ∃ token operand, items = [.string token, operand]
  · obtain ⟨token, operand, rfl⟩ := hpair
    rw [fieldTest, if_neg (Bool.eq_false_iff.mp (h token operand rfl))]
  · exact fieldTest_eq_positional hpair

/-- What a modifier and its operand are read as, by the class of the token. -/
theorem modified_eq_ok {field token : String} {operand : Document} {test : Test}
    (h : modified field token operand = .ok test) :
    (Modifier.ofToken token = .between ∧ ∃ low high, bounds field operand = .ok (low, high) ∧ test = .between low high) ∨
    (∃ relation values, Modifier.ofToken token = .set relation ∧ members field relation.words operand = .ok values ∧
      test = .oneOf relation values) ∨
    (Modifier.ofToken token = .like ∧ ∃ pattern, operand.toValue? = some pattern ∧ test = .like pattern) ∨
    (Modifier.ofToken token = .comparison ∧ ∃ v, scalar field (Text.keyword token) operand = .ok v ∧
      test = .compare (some token) v) := by
  rw [modified] at h
  cases htoken : Modifier.ofToken token with
  | between =>
    rw [htoken] at h
    obtain ⟨⟨low, high⟩, hbounds, h⟩ := Outcome.bind_eq_ok.mp h
    exact Or.inl ⟨rfl, low, high, hbounds, (Outcome.pure_eq_ok.mp h).symm⟩
  | set relation =>
    rw [htoken] at h
    obtain ⟨values, hvalues, h⟩ := Outcome.bind_eq_ok.mp h
    exact Or.inr (Or.inl ⟨relation, values, rfl, hvalues, (Outcome.pure_eq_ok.mp h).symm⟩)
  | like =>
    rw [htoken] at h
    cases hvalue : operand.toValue? with
    | none =>
      rw [hvalue] at h
      cases h
    | some pattern =>
      rw [hvalue] at h
      exact Or.inr (Or.inr (Or.inl ⟨rfl, pattern, rfl, (Except.ok.inj h).symm⟩))
  | comparison =>
    rw [htoken] at h
    obtain ⟨v, hv, h⟩ := Outcome.bind_eq_ok.mp h
    exact Or.inr (Or.inr (Or.inr ⟨rfl, v, hv, (Outcome.pure_eq_ok.mp h).symm⟩))

/-- What the content of a field is read as, by its shape. -/
theorem fieldTest_eq_ok {field : String} {content : Document} {test : Test} (h : fieldTest field content = .ok test) :
    (∃ token operand, content = .object [(token, operand)] ∧ modified field token operand = .ok test) ∨
    (∃ token operand, content = .array [.string token, operand] ∧ Modifier.leadsList token = true ∧
      modified field token operand = .ok test) ∨
    (∃ items v, content = .array items ∧
      (∀ token operand, items = [.string token, operand] → Modifier.leadsList token = false) ∧
      scalar field "=" content = .ok v ∧ test = .compare (some "0") v) ∨
    ((∀ items, content ≠ .array items) ∧ (∀ members, content ≠ .object members) ∧
      ∃ v, scalar field "=" content = .ok v ∧ test = .compare none v) := by
  cases content with
  | object entries =>
    match entries with
    | [(token, operand)] => exact Or.inl ⟨token, operand, rfl, h⟩
    | [] => cases h
    | _ :: _ :: _ => cases h
  | array items =>
    by_cases hpair : ∃ token operand, items = [.string token, operand] ∧ Modifier.leadsList token = true
    · obtain ⟨token, operand, rfl, hlead⟩ := hpair
      rw [fieldTest, if_pos hlead] at h
      exact Or.inr (Or.inl ⟨token, operand, rfl, hlead, h⟩)
    · have hdata : ∀ token operand, items = [.string token, operand] → Modifier.leadsList token = false :=
        fun token operand hitems => Bool.eq_false_iff.mpr fun hlead => hpair ⟨token, operand, hitems, hlead⟩
      rw [fieldTest_of_data hdata] at h
      obtain ⟨v, hv, h⟩ := Outcome.bind_eq_ok.mp h
      exact Or.inr (Or.inr (Or.inl ⟨items, v, rfl, hdata, hv, (Outcome.pure_eq_ok.mp h).symm⟩))
  | _ =>
    obtain ⟨v, hv, h⟩ := Outcome.bind_eq_ok.mp h
    exact Or.inr (Or.inr (Or.inr ⟨nofun, nofun, v, hv, (Outcome.pure_eq_ok.mp h).symm⟩))

theorem fieldCondition_eq_ok {field : String} {content : Document} {c : Condition}
    (h : fieldCondition field content = .ok c) : ∃ test, fieldTest field content = .ok test ∧ c = .field field test := by
  rw [fieldCondition] at h
  split at h
  · cases h
  · obtain ⟨test, htest, h⟩ := Outcome.bind_eq_ok.mp h
    exact ⟨test, htest, (Outcome.pure_eq_ok.mp h).symm⟩

/-! ### Groups -/

/-- A group that is read holds the conditions of its entries, of which there is one. -/
theorem nonempty_eq_ok {key : String} {connective : Option Connective} {children : List Condition} {c : Condition} :
    nonempty key connective children = .ok c ↔ children ≠ [] ∧ c = .group connective children := by
  rw [nonempty]
  cases children <;> simp [eq_comm]

/-- What is read as a group are the conditions of the document, of which there is one. -/
theorem group_eq_ok {key : String} {connective : Option Connective} {d : Document} {c : Condition}
    (h : group key connective d = .ok c) :
    ∃ children, d.conditions = .ok children ∧ children ≠ [] ∧ c = .group connective children := by
  cases d with
  | object entries =>
    obtain ⟨children, hchildren, h⟩ := Outcome.bind_eq_ok.mp h
    exact ⟨children, hchildren, nonempty_eq_ok.mp h⟩
  | array items =>
    obtain ⟨children, hchildren, h⟩ := Outcome.bind_eq_ok.mp h
    exact ⟨children, hchildren, nonempty_eq_ok.mp h⟩
  | _ => cases h

/-- The condition of one member of an object. -/
def entryCondition (entry : String × Document) : Except Fault Condition :=
  match keyRole entry.1 with
  | .group connective => group entry.1 connective entry.2
  | .field => fieldCondition entry.1 entry.2

theorem entryConditions_eq_mapM (entries : List (String × Document)) :
    entryConditions entries = entries.mapM entryCondition := by
  induction entries with
  | nil => rfl
  | cons entry rest ih =>
    rw [entryConditions, Outcome.mapM_cons, ← ih, entryCondition]
    cases keyRole entry.1 <;> rfl

/-- The condition of an item of an array, which comes with its position. -/
def itemCondition (item : Document × Nat) : Except Fault Condition :=
  group (Decimal.text item.2) none item.1

theorem itemConditions_eq_mapM (position : Nat) (items : List Document) :
    itemConditions position items = (items.zipIdx position).mapM itemCondition := by
  induction items generalizing position with
  | nil => rfl
  | cons item rest ih =>
    rw [List.zipIdx_cons, Outcome.mapM_cons, ← ih]
    rfl

end Document

/-- A tree is read in two steps. -/
theorem Tree.outcome_ofDocument (d : Document) :
    (ofDocument d).outcome = d.conditions >>= fun cs => (ofConditions .and cs).outcome := by
  rw [ofDocument, Attempt.outcome_bind]
  rfl

end Criteria
