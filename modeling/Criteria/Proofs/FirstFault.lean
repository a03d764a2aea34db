import Criteria.Proofs.Building

/-! The first fault of criteria. Whether a list of conditions can be built depends on each of its conditions alone,
    nested ones included: a field needs a name, a set that is given by its members needs one, and so does a group.
    Of several conditions that lack this, the first one in pre-order tells the fault. -/

namespace Criteria

theorem Test.fault?_eq_some_iff {name : String} {test : Test} {fault : Fault} : test.fault? name = some fault ↔
    ∃ relation, test = .oneOf relation [] ∧ fault = .missingOperand name relation.words := by
  constructor
  · intro h
    unfold fault? at h
    split at h
    · exact ⟨_, rfl, (Option.some.inj h).symm⟩
    · cases h
  · rintro ⟨relation, rfl, rfl⟩
    rfl

namespace Condition

mutual

/-- The condition and those nested in it, each with its position among its siblings and in front of its children.
    Embedded trees are not entered. -/
def preorder (position : Nat) : Condition → List (Nat × Condition)
  | .field name test => [(position, .field name test)]
  | .group connective children => (position, .group connective children) :: preorderEach 0 children
  | .raw piece => [(position, .raw piece)]
  | .tree t => [(position, .tree t)]

/-- The same for a list of siblings, the first of which stands at `position`. -/
def preorderEach (position : Nat) : List Condition → List (Nat × Condition)
  | [] => []
  | c :: cs => c.preorder position ++ preorderEach (position + 1) cs

end

/-- Nothing is missing in the condition, its children aside. -/
inductive Sound : Condition → Prop
  | field {name : String} {test : Test} : Text.trim name ≠ "" → (∀ relation, test ≠ .oneOf relation []) →
      Sound (.field name test)
  | group {connective : Option Connective} {children : List Condition} : children ≠ [] →
      Sound (.group connective children)
  | raw {piece : Fragment} : Sound (.raw piece)
  | tree {t : Tree} : Sound (.tree t)

/-- What the condition at a position is refused for, its children aside. -/
inductive Refused (position : Nat) : Condition → Fault → Prop
  | blankField {name : String} {test : Test} : Text.trim name = "" → Refused position (.field name test) .emptyField
  | noMember {name : String} {relation : SetRelation} : Text.trim name ≠ "" →
      Refused position (.field name (.oneOf relation [])) (.missingOperand name relation.words)
  | noChild {connective : Option Connective} :
      Refused position (.group connective []) (.emptyGroup (Decimal.text position))

/-- The check of one condition, its children aside. -/
def ownFault? (position : Nat) : Condition → Option Fault
  | .field name test => if Text.isBlankText name then some .emptyField else test.fault? name
  | .group _ children => if children.isEmpty then some (.emptyGroup (Decimal.text position)) else none
  | .raw _ => none
  | .tree _ => none

variable {position : Nat} {fault : Fault} {c : Condition}

theorem refused_iff : Refused position c fault ↔ c.ownFault? position = some fault := by
  constructor
  · intro h
    cases h with
    | blankField hblank => rw [ownFault?, if_pos (Text.isBlankText_iff.mpr hblank)]
    | noMember hname =>
      rw [ownFault?, if_neg fun hblank => hname (Text.isBlankText_iff.mp hblank)]
      rfl
    | noChild => rfl
  · intro h
    cases c with
    | field name test =>
      rw [ownFault?] at h
      split at h
      · rename_i hblank
        cases h
        exact .blankField (Text.isBlankText_iff.mp hblank)
      · rename_i hblank
        obtain ⟨relation, rfl, rfl⟩ := Test.fault?_eq_some_iff.mp h
        exact .noMember fun htrim => hblank (Text.isBlankText_iff.mpr htrim)
    | group connective children =>
      cases children with
      | nil =>
        cases h
        exact .noChild
      | cons c cs => cases h
    | raw piece => cases h
    | tree t => cases h

theorem sound_iff : Sound c ↔ c.ownFault? position = none := by
  constructor
  · intro h
    refine Option.eq_none_iff_forall_ne_some.mpr fun fault hfault => ?_
    cases refused_iff.mpr hfault with
    | blankField hblank =>
      cases h with
      | field hname => exact hname hblank
    | noMember =>
      cases h with
      | field _ hmembers => exact hmembers _ rfl
    | noChild =>
      cases h with
      | group hchildren => exact hchildren rfl
  · intro h
    have hnot : ∀ fault, ¬Refused position c fault := fun fault hrefused => by
      rw [refused_iff.mp hrefused] at h
      cases h
    cases c with
    | field name test =>
      have hname : Text.trim name ≠ "" := fun hblank => hnot _ (.blankField hblank)
      refine .field hname ?_
      rintro relation rfl
      exact hnot _ (.noMember hname)
    | group connective children =>
      refine .group ?_
      rintro rfl
      exact hnot _ .noChild
    | raw piece => exact .raw
    | tree t => exact .tree

/-! ### Building -/

section
open Outcome

theorem fault?_resolveAll {cs : List Condition} (h : ∀ c ∈ cs, ∀ parent position,
    fault? (c.resolve parent position).outcome = (c.preorder position).findSome? fun node => node.2.ownFault? node.1)
    (parent : Connective) (position : Nat) :
    fault? (resolveAll parent position cs).outcome =
      (preorderEach position cs).findSome? fun node => node.2.ownFault? node.1 := by
  induction cs generalizing position with
  | nil => rfl
  | cons c cs ih =>
    obtain ⟨hc, hcs⟩ := List.forall_mem_cons.mp h
    rw [outcome_resolveAll_cons, fault?_bind_map, preorderEach, List.findSome?_append, hc, ih hcs]

theorem fault?_resolve (c : Condition) (parent : Connective) (position : Nat) :
    fault? (c.resolve parent position).outcome =
      (c.preorder position).findSome? fun node => node.2.ownFault? node.1 := by
  induction c generalizing parent position with
  | field name test =>
    rw [outcome_field, preorder, List.findSome?_singleton, ownFault?]
    split
    · rfl
    · cases test.fault? name <;> rfl
  | group connective children ih =>
    rw [outcome_group, preorder, List.findSome?_cons, ownFault?]
    split
    · rfl
    · -- A group passes on the faults of its children, whose positions start at zero again.
      rw [fault?_map, Tree.outcome_ofConditions, fault?_map]
      exact fault?_resolveAll ih _ 0
  | raw piece => rfl
  | tree t => rfl

/-- Building stops at the first condition in pre-order that does not pass its own check. The connective of the list
    has no part in it. -/
theorem fault?_ofConditions (s : Connective) (cs : List Condition) :
    fault? (Tree.ofConditions s cs).outcome = (preorderEach 0 cs).findSome? fun node => node.2.ownFault? node.1 := by
  rw [Tree.outcome_ofConditions, fault?_map]
  exact fault?_resolveAll (fun c _ => fault?_resolve c) s 0

end
end Condition

open Condition in
/-- A list can be built if and only if every condition in it is sound. Otherwise the first one in pre-order that is not
    sound is what it is refused for. The connective of the list has no part in this. -/
theorem Tree.ofConditions_first_fault (s : Connective) (cs : List Condition) :
    ((∃ t, (Tree.ofConditions s cs).outcome = .ok t) ↔ ∀ node ∈ preorderEach 0 cs, node.2.Sound) ∧
    (∀ fault, (Tree.ofConditions s cs).outcome = .error fault ↔
      ∃ before position c after, preorderEach 0 cs = before ++ (position, c) :: after ∧
        (∀ node ∈ before, node.2.Sound) ∧ Refused position c fault) ∧
    ∀ s', Outcome.fault? (Tree.ofConditions s' cs).outcome = Outcome.fault? (Tree.ofConditions s cs).outcome := by
  refine ⟨?_, fun fault => ?_, fun s' => ?_⟩
  · rw [← Outcome.fault?_eq_none_iff, fault?_ofConditions, List.findSome?_eq_none_iff]
    exact forall₂_congr fun node _ => sound_iff.symm
  · rw [← Outcome.fault?_eq_some_iff, fault?_ofConditions, List.findSome?_eq_some_iff]
    constructor
    · rintro ⟨before, ⟨position, c⟩, after, hsplit, hfault, hbefore⟩
      exact ⟨before, position, c, after, hsplit, fun node hnode => sound_iff.mpr (hbefore node hnode),
        refused_iff.mpr hfault⟩
    · rintro ⟨before, position, c, after, hsplit, hbefore, hrefused⟩
      exact ⟨before, (position, c), after, hsplit, refused_iff.mp hrefused,
        fun node hnode => sound_iff.mp (hbefore node hnode)⟩
  · rw [fault?_ofConditions, fault?_ofConditions]

/-- A field without a name is found before its set without members, and the positions of a group start again at zero. -/
example : (Tree.ofConditions .or [.raw ⟨"?", []⟩, .group none [.raw ⟨"x", []⟩, .group none [],
    .field " " (.oneOf .isIn [])]]).outcome = .error (.emptyGroup "1") ∧
    (Tree.ofConditions .or [.raw ⟨"?", []⟩, .group none [.field " " (.oneOf .isIn [])]]).outcome = .error .emptyField :=
  ⟨by rfl, by rfl⟩

end Criteria
