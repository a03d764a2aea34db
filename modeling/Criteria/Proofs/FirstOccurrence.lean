import Criteria.Value

/-! First occurrences. Values that are the same as a third one are the same, so a value that repeats a value of a
    list repeats one of those that were kept. Dropping repetitions therefore keeps exactly the values that are the
    same as none before them, kept or not. -/

namespace Criteria

namespace Binary64

theorem same_iff {x y : Binary64} : x.same y = true ↔
    x.isNaN = false ∧ y.isNaN = false ∧ (x = y ∨ x.isZero = true ∧ y.isZero = true) := by
  cases x
  cases y
  simp [same, and_assoc]

theorem same_trans {x y z : Binary64} (hxy : x.same y = true) (hyz : y.same z = true) : x.same z = true := by
  obtain ⟨hx, hy, h₁⟩ := same_iff.mp hxy
  obtain ⟨-, hz, h₂⟩ := same_iff.mp hyz
  refine same_iff.mpr ⟨hx, hz, ?_⟩
  rcases h₁ with rfl | ⟨hx0, hy0⟩
  · exact h₂
  · rcases h₂ with rfl | ⟨-, hz0⟩
    · exact Or.inr ⟨hx0, hy0⟩
    · exact Or.inr ⟨hx0, hz0⟩

end Binary64

namespace Value

/-- Two values are the same if they are one value and no number of floating point, or are two such numbers that are
    the same. -/
theorem same_iff {v w : Value} : v.same w = true ↔
    (∃ x y, v = .float x ∧ w = .float y ∧ x.same y = true) ∨ ((∀ x, v ≠ .float x) ∧ v = w) := by
  cases v <;> cases w <;> simp [same]

theorem same_trans {u v w : Value} (huv : u.same v = true) (hvw : v.same w = true) : u.same w = true := by
  rcases same_iff.mp huv with ⟨x, y, rfl, rfl, hxy⟩ | ⟨-, rfl⟩
  · rcases same_iff.mp hvw with ⟨y', z, hy, rfl, hyz⟩ | ⟨hne, -⟩
    · cases hy
      exact Binary64.same_trans hxy hyz
    · exact absurd rfl (hne y)
  · exact hvw

/-- The values of a list that are the same as none before them and none of `before`. -/
def firstsAfter (before : List Value) : List Value → List Value
  | [] => []
  | v :: rest =>
    if before.any (·.same v) then firstsAfter (before ++ [v]) rest
    else v :: firstsAfter (before ++ [v]) rest

/-- The first occurrences of the values of a list. -/
def firsts (values : List Value) : List Value := firstsAfter [] values

/-- The values kept so far tell the same repetitions as all values so far. -/
theorem freshAfter_eq_firstsAfter {kept before : List Value} (h : ∀ v, kept.any (·.same v) = before.any (·.same v))
    (values : List Value) : freshAfter kept values = firstsAfter before values := by
  induction values generalizing kept before with
  | nil => rfl
  | cons v rest ih =>
    rw [freshAfter, firstsAfter, ← h v]
    by_cases hv : kept.any (·.same v) = true
    · rw [if_pos hv, if_pos hv]
      apply ih
      intro w
      rw [List.any_append, ← h w]
      by_cases hw : v.same w = true
      · -- What repeats `v` repeats the kept value that `v` repeats.
        obtain ⟨k, hk, hkv⟩ := List.any_eq_true.mp hv
        have : kept.any (·.same w) = true := List.any_eq_true.mpr ⟨k, hk, same_trans hkv hw⟩
        simp [this]
      · simp [hw]
    · rw [if_neg hv, if_neg hv, ih]
      intro w
      rw [List.any_append, List.any_append, h w]

/-- The distinct values of a list are its first occurrences. -/
theorem distinct_eq_firsts (values : List Value) : distinct values = firsts values :=
  freshAfter_eq_firstsAfter (fun _ => rfl) values

end Value
end Criteria
