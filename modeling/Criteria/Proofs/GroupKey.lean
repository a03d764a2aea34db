import Criteria.Proofs.Grammar
import Criteria.Proofs.Vocabulary

/-! Keys of groups. Every position is spelled by a numeric token, and a connective keeps its meaning whatever blanks
    stand after its word. So there are as many keys for groups of each kind as may be asked for, and a key tells both
    the kind of its group and the position that it was made for. -/

namespace Criteria

namespace Operator

theorem isNumericToken_text (n : Nat) : isNumericToken (Decimal.text n) = true := by
  rw [isNumericToken, Decimal.text, String.toList_ofList]
  exact isNumeric_iff.mpr ⟨_, Or.inl rfl, .whole (Decimal.ofNat_ne_nil n) fun _ => Decimal.isDigit_of_mem_ofNat⟩

end Operator

theorem Decimal.text_injective {m n : Nat} (h : Decimal.text m = Decimal.text n) : m = n := by
  have hdigits : ofNat m = ofNat n := String.ofList_injective h
  rw [← toNat_ofNat m, hdigits, toNat_ofNat]

namespace Document

/-- A key for a group at a position: the position itself, or the word for the connective and as many blanks. -/
def groupKey (position : Nat) : Option Connective → String
  | none => Decimal.text position
  | some s => String.ofList (s.word.toList ++ List.replicate position ' ')

theorem keyword_groupKey (position : Nat) (s : Connective) : Text.keyword (groupKey position (some s)) = s.word := by
  have hblanks : ∀ c ∈ List.replicate position ' ', Text.isBlank c = true := by
    intro c hc
    rw [List.eq_of_mem_replicate hc]
    decide
  rw [Text.keyword, Text.trim, groupKey, String.toList_ofList, Text.trimmed_append_blanks hblanks,
    ← String.toList_inj, Text.toList_toUpper, String.toList_ofList]
  cases s <;> decide

theorem not_isNumericToken_groupKey (position : Nat) (s : Connective) :
    Operator.isNumericToken (groupKey position (some s)) = false := by
  rw [Operator.isNumericToken, groupKey, String.toList_ofList, Operator.isNumeric.eq_def]
  cases s <;> simp [Connective.word]

theorem keyRole_groupKey (position : Nat) (connective : Option Connective) :
    keyRole (groupKey position connective) = .group connective := by
  cases connective with
  | none => rw [groupKey, keyRole, if_pos (Operator.isNumericToken_text position)]
  | some s =>
    rw [keyRole, not_isNumericToken_groupKey, Connective.ofKeyword?, keyword_groupKey]
    cases s <;> rfl

theorem groupKey_isGroupKey (position : Nat) (connective : Option Connective) :
    GroupKey (groupKey position connective) := by
  rcases keyRole_cases (groupKey position connective) with ⟨hkey, -⟩ | ⟨-, hrole⟩
  · exact hkey
  · rw [keyRole_groupKey] at hrole
    cases hrole

theorem keyRole_of_not_groupKey {key : String} (h : ¬GroupKey key) : keyRole key = .field := by
  rcases keyRole_cases key with ⟨hkey, -⟩ | ⟨-, hrole⟩
  · exact absurd hkey h
  · exact hrole

theorem groupKey_injective {i j : Nat} {a b : Option Connective} (h : groupKey i a = groupKey j b) : i = j := by
  -- The role of the key tells the kind of the group.
  obtain rfl : a = b := by
    have hrole := keyRole_groupKey i a
    rw [h, keyRole_groupKey] at hrole
    exact (KeyRole.group.inj hrole).symm
  cases a with
  | none => exact Decimal.text_injective h
  | some s =>
    -- One word, so the keys differ in their numbers of blanks.
    have hlength := congrArg List.length (String.ofList_injective h)
    simpa using hlength

end Document
end Criteria
