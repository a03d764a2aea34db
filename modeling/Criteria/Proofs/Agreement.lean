import Criteria.Proofs.DocumentOrder
import Criteria.Proofs.FirstFault

/-! Reading and building agree. The criteria of a document are checked twice, when they are read and when they are
    built. Reading comes first, and it leaves a single fault to building: a modifier for a set whose operand is an empty
    array. Of several such modifiers the first one in document order is reported. -/

namespace Criteria
namespace Document

/-- The content of a field is a modifier for a set, with an empty array as operand. -/
inductive EmptySet : Document → SetRelation → Prop
  | modifier {token : String} {relation : SetRelation} : Text.phrase token = relation.words →
      EmptySet (.object [(token, .array [])]) relation
  | listed {token : String} {relation : SetRelation} : Text.phrase token = relation.words →
      EmptySet (.array [.string token, .array []]) relation

/-- What is reported of the first field, in document order, that is tested for an empty set. -/
def FirstEmptySet (d : Document) (fault : Fault) : Prop :=
  ∃ before key content after relation, d.fields = before ++ (key, content) :: after ∧
    (∀ entry ∈ before, ∀ relation, ¬EmptySet entry.2 relation) ∧ EmptySet content relation ∧
    fault = .missingOperand key relation.words

/-- The number of entries of the root. -/
def entryCount : Document → Nat
  | .object entries => entries.length
  | .array items => items.length
  | _ => 0

variable {key token : String} {content operand : Document} {test : Test} {relation : SetRelation} {fault : Fault}

/-- No members are read of an empty array alone. -/
theorem eq_nil_of_members {modifier : String} (h : members key modifier operand = .ok []) : operand = .array [] := by
  cases operand with
  | array items => rw [List.eq_nil_of_length_eq_zero (Outcome.length_of_mapM h).symm]
  | _ =>
    obtain ⟨v, -, h⟩ := Outcome.bind_eq_ok.mp h
    cases Outcome.pure_eq_ok.mp h

theorem modified_of_phrase (h : Text.phrase token = relation.words) :
    modified key token (.array []) = .ok (.oneOf relation []) := by
  rw [modified, Modifier.ofToken_of_set h]
  rfl

/-- A test without members is read from a modifier for a set and an empty array alone. -/
theorem eq_of_modified (h : modified key token operand = .ok (.oneOf relation [])) :
    Text.phrase token = relation.words ∧ operand = .array [] := by
  obtain ⟨-, low, high, -, htest⟩ | ⟨relation', values, hclass, hvalues, htest⟩ | ⟨-, pattern, -, htest⟩ |
    ⟨-, v, -, htest⟩ := modified_eq_ok h <;> cases htest
  refine ⟨?_, eq_nil_of_members hvalues⟩
  rcases Modifier.ofToken_cases token with ⟨-, ht⟩ | ⟨relation', hphrase, ht⟩ | ⟨-, ht⟩ | ⟨-, -, -, ht⟩ <;>
    cases ht.symm.trans hclass
  exact hphrase

theorem fieldTest_of_emptySet (h : EmptySet content relation) : fieldTest key content = .ok (.oneOf relation []) := by
  cases h with
  | modifier hphrase => exact modified_of_phrase hphrase
  | listed hphrase =>
    rw [fieldTest, if_pos (Modifier.leadsList_iff.mpr (Or.inr (Or.inr (Or.inl ⟨relation, hphrase⟩))))]
    exact modified_of_phrase hphrase

/-- A set without members is read of a modifier with an empty array alone: what is no modifier is compared. -/
theorem emptySet_of_fieldTest (h : fieldTest key content = .ok (.oneOf relation [])) : EmptySet content relation := by
  obtain ⟨token, operand, rfl, h⟩ | ⟨token, operand, rfl, -, h⟩ | ⟨items, v, -, -, -, htest⟩ | ⟨-, -, v, -, htest⟩ :=
    fieldTest_eq_ok h
  · obtain ⟨hphrase, rfl⟩ := eq_of_modified h
    exact .modifier hphrase
  · obtain ⟨hphrase, rfl⟩ := eq_of_modified h
    exact .listed hphrase
  · cases htest
  · cases htest

/-! ### Faults that are left -/

/-- The fault that building finds in the test of a field. -/
def setFault? (entry : String × Document) : Option Fault :=
  match fieldTest entry.1 entry.2 with
  | .ok test => test.fault? entry.1
  | .error _ => none

theorem setFault?_of_fieldTest (h : fieldTest key content = .ok test) : setFault? (key, content) = test.fault? key := by
  rw [setFault?, h]

/-- Building finds fault with an empty set and with no other test. -/
theorem setFault?_eq_some_iff : setFault? (key, content) = some fault ↔
    ∃ relation, EmptySet content relation ∧ fault = .missingOperand key relation.words := by
  constructor
  · intro h
    cases htest : fieldTest key content with
    | error _ =>
      rw [setFault?, htest] at h
      cases h
    | ok test =>
      rw [setFault?_of_fieldTest htest] at h
      obtain ⟨relation, rfl, rfl⟩ := Test.fault?_eq_some_iff.mp h
      exact ⟨relation, emptySet_of_fieldTest htest, rfl⟩
  · rintro ⟨relation, hset, rfl⟩
    rw [setFault?_of_fieldTest (fieldTest_of_emptySet hset)]
    rfl

theorem setFault?_eq_none_iff : setFault? (key, content) = none ↔ ∀ relation, ¬EmptySet content relation := by
  rw [Option.eq_none_iff_forall_ne_some]
  constructor
  · intro h relation hset
    exact h _ (setFault?_eq_some_iff.mpr ⟨relation, hset, rfl⟩)
  · intro h fault hfault
    obtain ⟨relation, hset, -⟩ := setFault?_eq_some_iff.mp hfault
    exact h relation hset

/-- Fields that were read have names, and groups that were read have members, so only the sets are left to check. -/
theorem ReadAs.findSome?_ownFault? {fields : List (String × Document)} {cs : List Condition} (h : ReadAs fields cs)
    (position : Nat) : (Condition.preorderEach position cs).findSome? (fun node => node.2.ownFault? node.1) =
      fields.findSome? setFault? := by
  induction h generalizing position with
  | nil => rfl
  | @field key content test rest cs hname htest _ ih =>
    have hown : (Condition.field key test).ownFault? position = setFault? (key, content) := by
      rw [Condition.ownFault?, if_neg fun hblank => hname (Text.isBlankText_iff.mp hblank), setFault?_of_fieldTest htest]
    rw [Condition.preorderEach, Condition.preorder, List.findSome?_append, List.findSome?_singleton, hown, ih,
      List.findSome?_cons]
    cases setFault? (key, content) <;> rfl
  | @group inner rest connective children cs hne _ _ ihchildren ih =>
    have hown : (Condition.group connective children).ownFault? position = none := by
      rw [Condition.ownFault?, if_neg (by simpa using hne)]
    rw [Condition.preorderEach, Condition.preorder, List.findSome?_append, List.findSome?_cons, hown, ihchildren, ih,
      List.findSome?_append]

/-- What was read is refused for the first fault in the tests of its fields, in document order. -/
theorem fault?_ofConditions_of_read {d : Document} {cs : List Condition} (h : d.conditions = .ok cs) (s : Connective) :
    Outcome.fault? (Tree.ofConditions s cs).outcome = d.fields.findSome? setFault? := by
  rw [Condition.fault?_ofConditions]
  exact (readAs_conditions h).findSome?_ownFault? 0

theorem findSome?_setFault?_eq_some_iff {d : Document} :
    d.fields.findSome? setFault? = some fault ↔ d.FirstEmptySet fault := by
  rw [List.findSome?_eq_some_iff]
  constructor
  · rintro ⟨before, ⟨key, content⟩, after, hsplit, hfault, hbefore⟩
    obtain ⟨relation, hset, rfl⟩ := setFault?_eq_some_iff.mp hfault
    exact ⟨before, key, content, after, relation, hsplit,
      fun entry hentry => setFault?_eq_none_iff.mp (hbefore entry hentry), hset, rfl⟩
  · rintro ⟨before, key, content, after, relation, hsplit, hbefore, hset, rfl⟩
    exact ⟨before, (key, content), after, hsplit, setFault?_eq_some_iff.mpr ⟨relation, hset, rfl⟩,
      fun entry hentry => setFault?_eq_none_iff.mpr (hbefore entry hentry)⟩

theorem findSome?_setFault?_eq_none_iff {d : Document} :
    d.fields.findSome? setFault? = none ↔ ∀ entry ∈ d.fields, ∀ relation, ¬EmptySet entry.2 relation := by
  rw [List.findSome?_eq_none_iff]
  exact forall₂_congr fun entry _ => setFault?_eq_none_iff

/-- Each entry of the root gives one condition. -/
theorem length_conditions {d : Document} {cs : List Condition} (h : d.conditions = .ok cs) : cs.length = d.entryCount := by
  cases d with
  | null =>
    cases h
    rfl
  | object entries =>
    rw [conditions, entryConditions_eq_mapM] at h
    exact Outcome.length_of_mapM h
  | array items =>
    rw [conditions, itemConditions_eq_mapM] at h
    rw [Outcome.length_of_mapM h, List.length_zipIdx, entryCount]
  | _ => cases h

end Document

/-- A tree has one clause for each condition. -/
theorem Tree.size_of_ofConditions {s : Connective} {cs : List Condition} {t : Tree}
    (ht : (Tree.ofConditions s cs).outcome = .ok t) : t.size = cs.length :=
  (Tree.ofConditions_eq_ok_iff.mp ht).2.length_eq.symm

open Document in
/-- What cannot be read is refused for that reason. Of what can be read, building refuses exactly what holds an empty
    set, and reports the first one; all else becomes a tree with a clause for each entry of the root. -/
theorem Tree.ofDocument_first_empty_set (d : Document) :
    (∀ fault, d.conditions = .error fault → (Tree.ofDocument d).outcome = .error fault) ∧
    ∀ cs, d.conditions = .ok cs →
      ((∃ fault, (Tree.ofDocument d).outcome = .error fault) ↔ ∃ entry ∈ d.fields, ∃ relation, EmptySet entry.2 relation) ∧
      (∀ fault, (Tree.ofDocument d).outcome = .error fault ↔ d.FirstEmptySet fault) ∧
      ((∀ entry ∈ d.fields, ∀ relation, ¬EmptySet entry.2 relation) →
        ∃ t, (Tree.ofDocument d).outcome = .ok t ∧ t.size = d.entryCount) ∧
      ∀ s fault, (Tree.ofConditions s cs).outcome = .error fault → d.FirstEmptySet fault := by
  refine ⟨fun fault hfault => ?_, fun cs hcs => ?_⟩
  · rw [outcome_ofDocument, hfault]
    rfl
  · have htree : (Tree.ofDocument d).outcome = (Tree.ofConditions .and cs).outcome := by
      rw [outcome_ofDocument, hcs]
      rfl
    -- The fault does not depend on the connective, nor does the success.
    have herror : ∀ s fault, (Tree.ofConditions s cs).outcome = .error fault ↔ d.FirstEmptySet fault := fun s fault => by
      rw [← Outcome.fault?_eq_some_iff, fault?_ofConditions_of_read hcs, findSome?_setFault?_eq_some_iff]
    have hok : (∃ t, (Tree.ofConditions .and cs).outcome = .ok t) ↔
        ∀ entry ∈ d.fields, ∀ relation, ¬EmptySet entry.2 relation := by
      rw [← Outcome.fault?_eq_none_iff, fault?_ofConditions_of_read hcs, findSome?_setFault?_eq_none_iff]
    rw [htree]
    refine ⟨?_, herror .and, fun hnone => ?_, fun s fault => (herror s fault).mp⟩
    · rw [Outcome.exists_error_iff, hok]
      simp only [not_forall, not_not, exists_prop]
    · obtain ⟨t, ht⟩ := hok.mpr hnone
      exact ⟨t, ht, (size_of_ofConditions ht).trans (length_conditions hcs)⟩

theorem Tree.ofDocument_first_empty_set_nested :
    ∃ d d' cs, d = Document.object [
        ("a", .object [("IN", .string "x")]),
        ("or", .array [.object [("b", .array [.string " not  in ", .array []])]]),
        ("c", .object [("any", .array [])])] ∧
      d' = .object [("c", .object [("any", .array [])]), ("e", .array [])] ∧
      d.conditions = .ok cs ∧ (Tree.ofDocument d).outcome = .error (.missingOperand "b" "NOT IN") ∧
      d.FirstEmptySet (.missingOperand "b" "NOT IN") ∧
      d'.conditions = .error (.missingOperand "e" "=") ∧
      (Tree.ofDocument d').outcome = .error (.missingOperand "e" "=") := by
  have hread : ∃ cs, (Document.object [
      ("a", .object [("IN", .string "x")]),
      ("or", .array [.object [("b", .array [.string " not  in ", .array []])]]),
      ("c", .object [("any", .array [])])]).conditions = .ok cs := Outcome.isOk_iff.mp (by decide +kernel)
  obtain ⟨cs, hcs⟩ := hread
  refine ⟨_, _, cs, rfl, rfl, hcs, ?refused, (((ofDocument_first_empty_set _).2 cs hcs).2.1 _).mp ?refused, ?unread,
    (ofDocument_first_empty_set _).1 _ ?unread⟩
  · decide +kernel
  · exact Outcome.fault?_eq_some_iff.mp (by decide +kernel)

end Criteria
