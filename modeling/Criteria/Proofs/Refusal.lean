import Criteria.Proofs.Grammar

/-! What a field is refused for. The checks come in a fixed order: the name of the field, the number of its modifiers,
    the shape of the operand, the items of the operand from left to right, and the number of bounds last. So a range
    with an item that stands for no value is refused for this item, however many items it has. The rules below tell the
    fault of a field by its content alone, and the reader reports exactly this fault. -/

namespace Criteria
namespace Document

/-- Taking first items leads nowhere, or to a node that stands for no value. -/
inductive RefusedLeaf (field modifier : String) : Document → Fault → Prop
  | missing {d : Document} : d.firstLeaf? = none → RefusedLeaf field modifier d (.missingOperand field modifier)
  | unreadable {d leaf : Document} : d.firstLeaf? = some leaf → ¬Readable leaf →
      RefusedLeaf field modifier d (.invalidOperand field modifier .scalar leaf.shape)

/-- An array has an item that stands for no value, the first of which is reported, or a single node stands for none. -/
inductive RefusedMembers (field modifier : String) : Document → Fault → Prop
  | item {before after : List Document} {item : Document} : (∀ earlier ∈ before, Readable earlier) → ¬Readable item →
      RefusedMembers field modifier (.array (before ++ item :: after))
        (.invalidOperand field modifier .scalars item.shape)
  | single {d : Document} : (∀ items, d ≠ .array items) → ¬Readable d →
      RefusedMembers field modifier d (.invalidOperand field modifier .scalars d.shape)

/-- A range is no array, or is refused for an item, or has not two of them. -/
inductive RefusedBounds (field : String) : Document → Fault → Prop
  | shape {d : Document} : (∀ items, d ≠ .array items) →
      RefusedBounds field d (.invalidOperand field "BETWEEN" .pair d.shape)
  | item {items : List Document} {fault : Fault} : RefusedMembers field "BETWEEN" (.array items) fault →
      RefusedBounds field (.array items) fault
  | arity {items : List Document} : (∀ item ∈ items, Readable item) → items.length ≠ 2 →
      RefusedBounds field (.array items) (.betweenArity field items.length)

/-- An operand is refused by the class of its modifier token. -/
inductive RefusedOperand (field token : String) : Document → Fault → Prop
  | range {d : Document} {fault : Fault} : Text.keyword token = "BETWEEN" → RefusedBounds field d fault →
      RefusedOperand field token d fault
  | set {relation : SetRelation} {d : Document} {fault : Fault} : Text.phrase token = relation.words →
      RefusedMembers field relation.words d fault → RefusedOperand field token d fault
  | pattern {d : Document} : Text.keyword token = "LIKE" → ¬Readable d →
      RefusedOperand field token d (.invalidOperand field "LIKE" .pattern d.shape)
  | comparison {d : Document} {fault : Fault} : Text.keyword token ≠ "BETWEEN" →
      (∀ relation : SetRelation, Text.phrase token ≠ relation.words) → Text.keyword token ≠ "LIKE" →
      RefusedLeaf field (Text.keyword token) d fault → RefusedOperand field token d fault

/-- The content of a named field is refused by its shape: an object for its one modifier or for having more or fewer, an
    array for its modifier or its leaves, a scalar for not being a value. -/
inductive RefusedContent (field : String) : Document → Fault → Prop
  | count {members : List (String × Document)} : members.length ≠ 1 →
      RefusedContent field (.object members) (.modifierCount field members.length)
  | modifier {token : String} {operand : Document} {fault : Fault} : RefusedOperand field token operand fault →
      RefusedContent field (.object [(token, operand)]) fault
  | listed {token : String} {operand : Document} {fault : Fault} : ListModifier token →
      RefusedOperand field token operand fault → RefusedContent field (.array [.string token, operand]) fault
  | list {items : List Document} {fault : Fault} :
      (∀ token operand, items = [.string token, operand] → ¬ListModifier token) →
      RefusedLeaf field "=" (.array items) fault → RefusedContent field (.array items) fault
  | scalar {d : Document} : (∀ items, d ≠ .array items) → (∀ members, d ≠ .object members) → ¬Readable d →
      RefusedContent field d (.invalidOperand field "=" .scalar d.shape)

/-- A field without a name is refused whatever it holds, and any other one for its content. -/
inductive RefusedField (field : String) (content : Document) : Fault → Prop
  | blank : Text.trim field = "" → RefusedField field content .emptyField
  | content {fault : Fault} : Text.trim field ≠ "" → RefusedContent field content fault →
      RefusedField field content fault

/-! ### Operands -/

variable {field modifier token : String} {d : Document} {fault : Fault}

theorem not_readable_iff : ¬Readable d ↔ d.toValue? = none := by
  rw [readable_iff, ← Option.isSome_iff_exists, Bool.not_eq_true, Option.isSome_eq_false_iff, Option.isNone_iff_eq_none]

theorem member_eq_error_iff : member field modifier d = .error fault ↔
    ¬Readable d ∧ fault = .invalidOperand field modifier .scalars d.shape := by
  rw [not_readable_iff, member]
  cases d.toValue? <;> simp [eq_comm]

theorem scalar_eq_error_iff : scalar field modifier d = .error fault ↔ RefusedLeaf field modifier d fault := by
  constructor
  · intro h
    rw [scalar] at h
    cases hleaf : d.firstLeaf? with
    | none =>
      rw [hleaf] at h
      cases h
      exact .missing hleaf
    | some leaf =>
      simp only [hleaf] at h
      cases hvalue : leaf.toValue? with
      | none =>
        rw [hvalue] at h
        cases h
        exact .unreadable hleaf (not_readable_iff.mpr hvalue)
      | some v =>
        rw [hvalue] at h
        cases h
  · rintro (hleaf | ⟨hleaf, hvalue⟩)
    · rw [scalar, hleaf]
    · simp only [scalar, hleaf, not_readable_iff.mp hvalue]

theorem members_eq_error_iff : members field modifier d = .error fault ↔ RefusedMembers field modifier d fault := by
  cases d with
  | array items =>
    rw [members, Outcome.mapM_eq_error_iff]
    simp only [isOk_member, member_eq_error_iff]
    constructor
    · rintro ⟨before, item, after, rfl, hbefore, hitem, rfl⟩
      exact .item hbefore hitem
    · intro h
      cases h with
      | item hbefore hitem => exact ⟨_, _, _, rfl, hbefore, hitem, rfl⟩
      | single harray => exact absurd rfl (harray items)
  | _ =>
    refine (Outcome.bind_pure_eq_error.trans member_eq_error_iff).trans ⟨?_, ?_⟩
    · rintro ⟨hd, rfl⟩
      exact .single (fun items h => by cases h) hd
    · intro h
      cases h with
      | single _ hd => exact ⟨hd, rfl⟩

theorem bounds_eq_error_iff : bounds field d = .error fault ↔ RefusedBounds field d fault := by
  cases d with
  | array items =>
    rw [bounds, Outcome.bind_eq_error, members_eq_error_iff]
    constructor
    · rintro (h | ⟨values, hvalues, h⟩)
      · exact .item h
      · -- All items are values here, so a length other than two is the only fault that is left.
        have hread : ∀ item ∈ items, Readable item := fun item hitem =>
          isOk_member.mp (Outcome.isOk_mapM.mp (Outcome.isOk_iff.mpr ⟨values, hvalues⟩) item hitem)
        have hlength : values.length = items.length := Outcome.length_of_mapM hvalues
        split at h
        · cases h
        · rename_i hpair
          cases h
          refine .arity hread fun htwo => ?_
          obtain ⟨low, high, rfl⟩ := List.length_eq_two.mp (hlength.trans htwo)
          exact hpair low high rfl
    · intro h
      cases h with
      | shape harray => exact absurd rfl (harray items)
      | item h => exact Or.inl h
      | arity hread htwo =>
        obtain ⟨values, hvalues⟩ := Outcome.isOk_iff.mp (Outcome.isOk_mapM.mpr fun item hitem =>
          isOk_member.mpr (hread item hitem) : (items.mapM (member field "BETWEEN")).isOk = true)
        refine Or.inr ⟨values, hvalues, ?_⟩
        split
        · exact absurd (Outcome.length_of_mapM hvalues).symm htwo
        · rfl
  | _ =>
    constructor
    · intro h
      cases h
      exact .shape fun items h => by cases h
    · intro h
      cases h
      rfl

/-- The classes of tokens exclude each other, so in each class only its own rule is left. -/
theorem refusedOperand_iff : RefusedOperand field token d fault ↔
    match Modifier.ofToken token with
    | .between => RefusedBounds field d fault
    | .set relation => RefusedMembers field relation.words d fault
    | .like => ¬Readable d ∧ fault = .invalidOperand field "LIKE" .pattern d.shape
    | .comparison => RefusedLeaf field (Text.keyword token) d fault := by
  constructor
  · intro h
    cases h with
    | range hb h =>
      rw [Modifier.ofToken_of_between hb]
      exact h
    | set hs h =>
      rw [Modifier.ofToken_of_set hs]
      exact h
    | pattern hl h =>
      rw [Modifier.ofToken_of_like hl]
      exact ⟨h, rfl⟩
    | comparison hb hs hl h =>
      rw [Modifier.ofToken_of_other hb hs hl]
      exact h
  · rcases Modifier.ofToken_cases token with ⟨hb, ht⟩ | ⟨relation, hs, ht⟩ | ⟨hl, ht⟩ | ⟨hb, hs, hl, ht⟩ <;> rw [ht]
    · exact .range hb
    · exact .set hs
    · rintro ⟨h, rfl⟩
      exact .pattern hl h
    · exact .comparison hb hs hl

theorem modified_eq_error_iff : modified field token d = .error fault ↔ RefusedOperand field token d fault := by
  rw [refusedOperand_iff, modified]
  rcases Modifier.ofToken_cases token with ⟨-, ht⟩ | ⟨relation, -, ht⟩ | ⟨hl, ht⟩ | ⟨-, -, -, ht⟩ <;> rw [ht]
  · exact Outcome.bind_pure_eq_error.trans bounds_eq_error_iff
  · exact Outcome.bind_pure_eq_error.trans members_eq_error_iff
  · rw [hl, not_readable_iff]
    cases d.toValue? <;> simp [eq_comm]
  · exact Outcome.bind_pure_eq_error.trans scalar_eq_error_iff

theorem positional_eq_error_iff : positional field d = .error fault ↔ RefusedLeaf field "=" d fault :=
  Outcome.bind_pure_eq_error.trans scalar_eq_error_iff

theorem refusedContent_listed_iff (h : ListModifier token) :
    RefusedContent field (.array [.string token, d]) fault ↔ RefusedOperand field token d fault := by
  constructor
  · intro hcontent
    -- The other rules for arrays ask for a list that no modifier heads.
    cases hcontent with
    | listed _ hoperand => exact hoperand
    | list hdata => exact absurd h (hdata token d rfl)
    | scalar harray => exact absurd rfl (harray _)
  · exact .listed h

theorem refusedContent_list_iff {items : List Document}
    (h : ∀ token operand, items = [.string token, operand] → ¬ListModifier token) :
    RefusedContent field (.array items) fault ↔ RefusedLeaf field "=" (.array items) fault := by
  constructor
  · intro hcontent
    cases hcontent with
    | listed hlist => exact absurd hlist (h _ _ rfl)
    | list _ hleaf => exact hleaf
    | scalar harray => exact absurd rfl (harray _)
  · exact .list h

theorem refusedContent_object_iff {members : List (String × Document)} :
    RefusedContent field (.object members) fault ↔
      (members.length ≠ 1 ∧ fault = .modifierCount field members.length) ∨
      ∃ token operand, members = [(token, operand)] ∧ RefusedOperand field token operand fault := by
  constructor
  · intro h
    cases h with
    | count hlength => exact Or.inl ⟨hlength, rfl⟩
    | modifier h => exact Or.inr ⟨_, _, rfl, h⟩
    | scalar _ hobject => exact absurd rfl (hobject members)
  · rintro (⟨hlength, rfl⟩ | ⟨token, operand, rfl, h⟩)
    · exact .count hlength
    · exact .modifier h

theorem fieldTest_eq_error_iff : fieldTest field d = .error fault ↔ RefusedContent field d fault := by
  cases d with
  | object members =>
    rw [refusedContent_object_iff]
    match members with
    | [] => simp [fieldTest, eq_comm]
    | [(token, operand)] =>
      rw [fieldTest, modified_eq_error_iff]
      simp
    | _ :: _ :: _ => simp [fieldTest, eq_comm]
  | array items =>
    rcases listModifier_or_data items with ⟨token, operand, rfl, hlist⟩ | hdata
    · rw [refusedContent_listed_iff hlist, fieldTest_of_listModifier hlist, modified_eq_error_iff]
    · rw [refusedContent_list_iff hdata, fieldTest_of_not_listModifier hdata, positional_eq_error_iff]
  | _ =>
    refine (Outcome.bind_pure_eq_error.trans scalar_eq_error_iff).trans ⟨?_, ?_⟩
    · intro h
      cases h with
      | missing hleaf => cases hleaf
      | unreadable hleaf hd =>
        cases hleaf
        exact .scalar (fun items h => by cases h) (fun members h => by cases h) hd
    · intro h
      cases h with
      | scalar _ _ hd => exact .unreadable rfl hd

/-- A field is refused by the rules above and by no other. -/
theorem fieldCondition_eq_error_iff {content : Document} :
    fieldCondition field content = .error fault ↔ RefusedField field content fault := by
  rw [fieldCondition]
  by_cases hblank : Text.isBlankText field = true
  · have htrim : Text.trim field = "" := Text.isBlankText_iff.mp hblank
    rw [if_pos hblank]
    constructor
    · intro h
      cases h
      exact .blank htrim
    · intro h
      cases h with
      | blank => rfl
      | content hname => exact absurd htrim hname
  · have hname : Text.trim field ≠ "" := fun htrim => hblank (Text.isBlankText_iff.mpr htrim)
    rw [if_neg hblank, Outcome.bind_pure_eq_error, fieldTest_eq_error_iff]
    constructor
    · exact .content hname
    · intro h
      cases h with
      | blank htrim => exact absurd htrim hname
      | content _ h => exact h

end Document
end Criteria
