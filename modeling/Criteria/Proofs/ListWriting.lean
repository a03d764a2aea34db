import Criteria.Proofs.Pieces
import Mathlib.Data.List.Basic

/-! Lists written as their members. A list gets the slots of its members in their order, and the values that are bound
    for it are those of the members whose slots take one, so each of them stands with its own slot. Written as a set,
    a list leaves behind any piece the same text and values as its distinct members written one after the other. -/

namespace Criteria
namespace Dialect

/-- The values of a list that get a slot: all of them, or the distinct ones if the list is taken as a set. -/
def slotted (values : List Value) (unique : Bool) : List Value :=
  if unique then Value.distinct values else values

/-- The places of the slots that take a bound value. -/
def bindingPlaces (slots : List Slot) : List Nat := slots.findIdxs (·.binds)

/-- Values written after a piece one at a time, with commas in between. -/
def writeEach (d : Dialect) (piece : Fragment) : List Value → Fragment
  | [] => piece
  | [v] => piece ++ d.valueFragment v
  | v :: w :: rest => d.writeEach (piece ++ d.valueFragment v ++ .ofText ", ") (w :: rest)

variable (d : Dialect)

theorem slots_eq (values : List Value) (unique : Bool) : d.slots values unique =
    ((slotted values unique).map d.slot, (slotted values unique).flatMap fun v => (d.valueFragment v).params) :=
  congrArg (Prod.mk ((slotted values unique).map d.slot)) (d.bound_slots (slotted values unique))

theorem binds_slot (v : Value) : (d.slot v).binds = !v.isNull := by
  cases v <;> rfl

/-- The bound values are found at the places of the binding slots, also if other values come first. -/
theorem map_some_params (front values : List Value) :
    (values.flatMap fun v => (d.valueFragment v).params).map some =
      ((values.map d.slot).findIdxs (·.binds) front.length).map ((front ++ values)[·]?) := by
  induction values generalizing front with
  | nil => rfl
  | cons v rest ih =>
    have hrest := ih (front ++ [v])
    rw [List.length_append, List.length_singleton, List.append_assoc, List.singleton_append] at hrest
    have hplace : (front ++ v :: rest)[front.length]? = some v := by
      rw [List.getElem?_append_right (Nat.le_refl _), Nat.sub_self, List.getElem?_cons_zero]
    rw [List.flatMap_cons, List.map_append, hrest, List.map_cons, List.findIdxs_cons, binds_slot, params_valueFragment]
    cases v.isNull with
    | true => rfl
    | false =>
      rw [Bool.not_false, if_pos rfl, if_neg Bool.false_ne_true, List.map_cons (a := front.length), hplace]
      rfl

theorem map_some_bound (values : List Value) (unique : Bool) : (d.slots values unique).2.map some =
    (bindingPlaces (d.slots values unique).1).map fun i => (slotted values unique)[i]? := by
  rw [slots_eq]
  exact d.map_some_params [] (slotted values unique)

theorem writeEach_eq_join (piece : Fragment) (values : List Value) :
    d.writeEach piece values = piece ++ .join ", " (values.map d.valueFragment) := by
  fun_induction writeEach d piece values with
  | case1 piece =>
    apply Fragment.ext
    · exact (String.append_empty).symm
    · exact (List.append_nil piece.params).symm
  | case2 piece v => rfl
  | case3 piece v w rest ih =>
    rw [ih, List.map_cons, List.map_cons, List.map_cons, Fragment.join_cons_cons, Fragment.append_assoc,
      Fragment.append_assoc, Fragment.append_assoc]

/-- A list is written as its members are. Each of its slots is the one that its member gets alone, each bound value
    is that of the member at the place of its slot, and behind any piece a set is written as its distinct members. -/
theorem slots_eq_each (values : List Value) (unique : Bool) :
    (d.slots values unique).1.length = (slotted values unique).length ∧
    (∀ i : Nat, (d.slots values unique).1[i]? = (slotted values unique)[i]?.map d.slot) ∧
    (d.slots values unique).2.length = (bindingPlaces (d.slots values unique).1).length ∧
    (∀ k : Nat, (d.slots values unique).2[k]? =
      (bindingPlaces (d.slots values unique).1)[k]?.bind fun i => (slotted values unique)[i]?) ∧
    ∀ piece, piece ++ d.setFragment values = d.writeEach piece (Value.distinct values) := by
  have hbound := d.map_some_bound values unique
  refine ⟨?_, fun i => ?_, ?_, fun k => ?_, fun piece => ?_⟩
  · rw [slots_eq, List.length_map]
  · rw [slots_eq, List.getElem?_map]
  · have hlength := congrArg List.length hbound
    rwa [List.length_map, List.length_map] at hlength
  · have hk : (d.slots values unique).2[k]?.map some =
        (bindingPlaces (d.slots values unique).1)[k]?.map fun i => (slotted values unique)[i]? := by
      rw [← List.getElem?_map, hbound, List.getElem?_map]
    cases hplace : (bindingPlaces (d.slots values unique).1)[k]? with
    | none =>
      rw [hplace] at hk
      exact Option.map_eq_none_iff.mp hk
    | some i =>
      rw [hplace] at hk
      obtain ⟨v, hv, hi⟩ := Option.map_eq_some_iff.mp hk
      exact hv.trans hi
  · rw [writeEach_eq_join, setFragment_eq_join]

end Dialect
end Criteria
