import Criteria.Proofs.FirstOccurrence
import Mathlib.Data.List.Basic

/-! Lists without repetitions. A value is dropped if it is the same as a value before it, whether that one was kept
    or not. So no two values that are kept are the same, a value of the list that is the same as itself is the same
    as exactly one of them, what is no number is always kept, and a list that continues another one adds the values
    of its own that the other one does not have. -/

namespace Criteria
namespace Value

/-- Whether the value is a floating-point datum that stands for no number, and so is the same as nothing. -/
def isNaN : Value → Bool
  | .float x => x.isNaN
  | _ => false

/-- The values of a list that are the same as none before them, by their places. -/
def unrepeated (values : List Value) : List Value :=
  (values.zipIdx.filter fun entry => !(values.take entry.2).any (·.same entry.1)).map (·.1)

variable {v w : Value}

theorem not_same_of_isNaN (h : w.isNaN = true) : v.same w = false := by
  cases w with
  | float y =>
    have hnan : y.isNaN = true := h
    cases v <;> simp [same, Binary64.same, hnan]
  | _ => cases h

/-! ### Values after others

Each law is proved for the values after any list of others, because every value joins the others for the values that
follow it. -/

section After
variable (before values : List Value)

theorem firstsAfter_eq_zipIdx : firstsAfter before values =
    ((values.zipIdx before.length).filter fun entry =>
      !((before ++ values).take entry.2).any (·.same entry.1)).map (·.1) := by
  induction values generalizing before with
  | nil => rfl
  | cons v rest ih =>
    have hrest := ih (before ++ [v])
    rw [List.length_append, List.length_singleton, List.append_assoc, List.singleton_append] at hrest
    rw [firstsAfter, List.zipIdx_cons, List.filter_cons, List.take_left, hrest]
    cases before.any (·.same v) <;> rfl

theorem firstsAfter_append (more : List Value) :
    firstsAfter before (values ++ more) = firstsAfter before values ++ firstsAfter (before ++ values) more := by
  induction values generalizing before with
  | nil => rw [List.append_nil]; rfl
  | cons v rest ih =>
    rw [List.cons_append, firstsAfter, firstsAfter, ih, List.append_assoc, List.singleton_append]
    split
    · rfl
    · rfl

/-- Others put in front take away the values that are the same as one of them, and no more. -/
theorem firstsAfter_append_left (front : List Value) :
    firstsAfter (front ++ before) values = (firstsAfter before values).filter fun v => !front.any (·.same v) := by
  induction values generalizing before with
  | nil => rfl
  | cons v rest ih =>
    rw [firstsAfter, firstsAfter, List.append_assoc, ih, List.any_append]
    cases before.any (·.same v) <;> cases hfront : front.any (·.same v) <;> simp [hfront]

theorem not_same_of_mem_firstsAfter (hv : v ∈ before) (hw : w ∈ firstsAfter before values) : v.same w = false := by
  rw [← List.append_nil before, firstsAfter_append_left, List.mem_filter] at hw
  rw [← Bool.not_eq_true]
  intro hsame
  have hany : before.any (·.same w) = true := List.any_eq_true.mpr ⟨v, hv, hsame⟩
  rw [hany] at hw
  exact absurd hw.2 Bool.false_ne_true

theorem pairwise_firstsAfter : (firstsAfter before values).Pairwise fun v w => v.same w = false := by
  induction values generalizing before with
  | nil => exact .nil
  | cons v rest ih =>
    rw [firstsAfter]
    split
    · exact ih (before ++ [v])
    · refine .cons (fun w hw => ?_) (ih (before ++ [v]))
      exact not_same_of_mem_firstsAfter (before ++ [v]) rest (List.mem_append_right before List.mem_cons_self) hw

theorem firstsAfter_eq_self (hbefore : ∀ w ∈ values, before.any (·.same w) = false)
    (h : values.Pairwise fun v w => v.same w = false) : firstsAfter before values = values := by
  induction values generalizing before with
  | nil => rfl
  | cons v rest ih =>
    obtain ⟨hv, hrest⟩ := List.pairwise_cons.mp h
    have hafter : ∀ w ∈ rest, (before ++ [v]).any (·.same w) = false := by
      intro w hw
      rw [List.any_append, hbefore w (List.mem_cons_of_mem v hw), List.any_cons, hv w hw]
      rfl
    rw [firstsAfter, hbefore v List.mem_cons_self, ih (before ++ [v]) hafter hrest]
    rfl

theorem filter_isNaN_firstsAfter : (firstsAfter before values).filter isNaN = values.filter isNaN := by
  induction values generalizing before with
  | nil => rfl
  | cons v rest ih =>
    rw [firstsAfter]
    cases hnan : v.isNaN with
    | true =>
      have hnew : before.any (·.same v) = false := by
        rw [List.any_eq_false]
        intro u _
        rw [not_same_of_isNaN hnan]
        exact Bool.false_ne_true
      rw [hnew, if_neg Bool.false_ne_true, List.filter_cons_of_pos hnan, List.filter_cons_of_pos hnan, ih]
    | false =>
      rw [List.filter_cons_of_neg (by rw [hnan]; exact Bool.false_ne_true), ← ih (before ++ [v])]
      split
      · rfl
      · rw [List.filter_cons_of_neg (by rw [hnan]; exact Bool.false_ne_true)]

/-- A value is the same as one kept value at most: as none after a value that it is the same as, and as the first one
    in all other lists that have one. -/
theorem countP_same_firstsAfter (v : Value) : (firstsAfter before values).countP (·.same v) =
    if before.any (·.same v) then 0 else if values.any (·.same v) then 1 else 0 := by
  induction values generalizing before with
  | nil => simp [firstsAfter]
  | cons w rest ih =>
    have hafter := ih (before ++ [w])
    rw [List.any_append, List.any_cons, List.any_nil, Bool.or_false] at hafter
    rw [firstsAfter, List.any_cons]
    by_cases hw : w.same v = true
    · -- What is the same as `w` is the same as `v`, so `w` is dropped if `v` would be.
      have hany : before.any (·.same w) = before.any (·.same v) := by
        congr 1
        funext u
        rw [Bool.eq_iff_iff]
        exact ⟨fun h => same_trans h hw, fun h => same_trans h (same_comm v w ▸ hw)⟩
      rw [hw, Bool.or_true, if_pos rfl] at hafter
      rw [hany, hw]
      cases hbefore : before.any (·.same v) with
      | true => simpa using hafter
      | false => simp [hw, hafter]
    · rw [Bool.not_eq_true] at hw
      rw [hw, Bool.or_false] at hafter
      rw [hw, Bool.false_or, ← hafter]
      split
      · rfl
      · simp [hw]

end After

/-- The values that are kept are those that are the same as none before them, whether these are kept or not. -/
theorem distinct_eq_unrepeated (values : List Value) :
    distinct values = unrepeated values ∧
    (distinct values).Pairwise (fun v w => v.same w = false) ∧
    (∀ v ∈ values, v.same v = true → (distinct values).countP (·.same v) = 1) ∧
    (distinct values).filter isNaN = values.filter isNaN ∧
    distinct (distinct values) = distinct values ∧
    ∀ more, distinct (values ++ more) = distinct values ++ (distinct more).filter fun v => !values.any (·.same v) := by
  have hpairwise : (distinct values).Pairwise fun v w => v.same w = false := by
    rw [distinct_eq_firsts]
    exact pairwise_firstsAfter [] values
  refine ⟨?_, hpairwise, fun v hv hself => ?_, ?_, ?_, fun more => ?_⟩
  · rw [distinct_eq_firsts]
    exact firstsAfter_eq_zipIdx [] values
  · have hany : values.any (·.same v) = true := List.any_eq_true.mpr ⟨v, hv, hself⟩
    rw [distinct_eq_firsts, firsts, countP_same_firstsAfter, hany]
    rfl
  · rw [distinct_eq_firsts]
    exact filter_isNaN_firstsAfter [] values
  · rw [distinct_eq_firsts (distinct values)]
    exact firstsAfter_eq_self [] _ (fun _ _ => rfl) hpairwise
  · rw [distinct_eq_firsts, distinct_eq_firsts, distinct_eq_firsts, firsts, firstsAfter_append, List.nil_append]
    have hmore := firstsAfter_append_left [] more values
    rw [List.append_nil] at hmore
    rw [hmore]
    rfl

theorem distinct_eq_unrepeated_zeros :
    ∃ values kept, values = [.float ⟨0⟩, .float ⟨0x7FF8000000000000⟩, .int 1, .float ⟨0x8000000000000000⟩,
        .float ⟨0x7FF8000000000000⟩, .text "1", .int 1] ∧
      kept = [.float ⟨0⟩, .float ⟨0x7FF8000000000000⟩, .int 1, .float ⟨0x7FF8000000000000⟩, .text "1"] ∧
      distinct values = kept ∧ Value.float ⟨0x8000000000000000⟩ ∈ values ∧ Value.float ⟨0x8000000000000000⟩ ∉ kept ∧
      same (.float ⟨0x8000000000000000⟩) (.float ⟨0x8000000000000000⟩) = true ∧
      kept.countP (·.same (.float ⟨0x8000000000000000⟩)) = 1 ∧ distinct kept = kept := by
  refine ⟨_, _, rfl, rfl, ?_⟩
  obtain ⟨-, -, hcount, -, hidem, -⟩ := distinct_eq_unrepeated [.float ⟨0⟩, .float ⟨0x7FF8000000000000⟩, .int 1,
    .float ⟨0x8000000000000000⟩, .float ⟨0x7FF8000000000000⟩, .text "1", .int 1]
  exact ⟨rfl, by decide, by decide, rfl, hcount (.float ⟨0x8000000000000000⟩) (by decide) rfl, hidem⟩

end Value
end Criteria
