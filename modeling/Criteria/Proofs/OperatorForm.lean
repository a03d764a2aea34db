import Criteria.Proofs.Alike
import Criteria.Proofs.Equality
import Mathlib.Data.List.Forall2

/-! The operator of a token as its normal form. Blanks around the token and the case of its letters do not show in it,
    and it is its own operator. Of the value only null shows, against which equality and inequality become tests of
    identity. -/

namespace Criteria

namespace Text

/-- The second character is the first one, raised or lowered if it is an ASCII letter or left as it is. -/
def SameLetter (c d : Char) : Prop := d = c ∨ d = c.toUpper ∨ d = c.toLower

/-- The second text is the first one with some of its ASCII letters raised or lowered. -/
def Recased (s t : String) : Prop := List.Forall₂ SameLetter s.toList t.toList

variable {s t left right : String}

theorem SameLetter.toUpper_eq {c d : Char} (h : SameLetter c d) : d.toUpper = c.toUpper := by
  rcases h with rfl | rfl | rfl
  · rfl
  · exact Text.toUpper_toUpper c
  · exact Text.toUpper_toLower c

theorem map_toUpper_of_sameLetters {cs ds : List Char} (h : List.Forall₂ SameLetter cs ds) :
    ds.map Char.toUpper = cs.map Char.toUpper := by
  induction h with
  | nil => rfl
  | cons hd _ ih => rw [List.map_cons, List.map_cons, hd.toUpper_eq, ih]

theorem Recased.keyword_eq (h : Recased s t) : keyword t = keyword s := by
  rw [← String.toList_inj, keyword, keyword, toList_toUpper, toList_toUpper, toList_trim, toList_trim, ← trimmed_map_toUpper,
    ← trimmed_map_toUpper, map_toUpper_of_sameLetters h]

theorem keyword_blanks_append_blanks (hleft : isBlankText left = true) (hright : isBlankText right = true) (s : String) :
    keyword (left ++ s ++ right) = keyword s := by
  have htrim : trim (left ++ s ++ right) = trim s := by
    rw [← String.toList_inj, toList_trim, toList_trim, String.toList_append, String.toList_append,
      trimmed_append_blanks (List.all_eq_true.mp hright), trimmed_blanks_append (List.all_eq_true.mp hleft)]
  rw [keyword, htrim, keyword]

theorem keyword_keyword (s : String) : keyword (keyword s) = keyword s := by
  rw [keyword, trim_keyword, keyword, ← String.toList_inj, toList_toUpper, toList_toUpper, List.map_map]
  exact List.map_congr_left fun c _ => Text.toUpper_toUpper c

end Text

namespace Operator
variable {v w : Value} {token : Option String} {operator s t : String}

theorem ofToken_congr (h : Text.keyword s = Text.keyword t) : ofToken (some s) = ofToken (some t) := by
  rw [ofToken_eq_keyword, ofToken_eq_keyword, h]

theorem resolve_congr_keyword (v : Value) (h : Text.keyword s = Text.keyword t) :
    resolve v (some s) = resolve v (some t) := by
  rw [resolve, resolve, ofToken_congr h]

/-- An operator is the operator of itself. -/
theorem ofToken_ofToken (token : Option String) : ofToken (some (ofToken token)) = ofToken token := by
  have hequal : ofToken (some "=") = "=" := ofToken_of_equalityToken (Or.inr (Or.inl (by decide +kernel)))
  cases token with
  | none => exact hequal
  | some t =>
    rw [ofToken_eq_keyword t]
    split
    · exact hequal
    · split
      · decide +kernel
      · split
        · exact hequal
        · -- What is left is the keyword itself, which passes the same three tests again.
          rw [ofToken_eq_keyword, Text.keyword_keyword, if_neg ‹_›, if_neg ‹_›, if_neg ‹_›]

/-- A token stands for equality if it is absent, blank, the sign of equality or a number. -/
theorem ofToken_eq_equality_iff : ofToken token = "=" ↔ ∀ t ∈ token, EqualityToken t := by
  constructor
  · rintro h t rfl
    -- A word without letters is the keyword of a token only if it is the trimmed token.
    have hplain : ∀ {word : String}, (∀ c ∈ word.toList, c.toNat < 65) → Text.keyword t = word → Text.trim t = word :=
      fun hword => (Text.keyword_eq_iff_of_no_letter hword).mp
    rw [ofToken_eq_keyword] at h
    split at h
    · rename_i hempty
      exact Or.inl (hplain (by simp) hempty)
    · split at h
      · exact absurd h (by decide)
      · split at h
        · rename_i hnumeric
          exact Or.inr (Or.inr ((hplain (toNat_lt_of_mem_isNumeric hnumeric) rfl).symm ▸ hnumeric))
        · exact Or.inr (Or.inl (hplain (by simp) h))
  · intro h
    cases token with
    | none => rfl
    | some t => exact ofToken_of_equalityToken (h t rfl)

/-! ### Against null -/

theorem againstNull_not_mem (operator : String) : againstNull operator ∉ ["=", "<>", "!="] := by
  unfold againstNull
  split
  · decide
  · decide
  · decide
  · simp_all

theorem againstNull_of_not_mem (h : operator ∉ ["=", "<>", "!="]) : againstNull operator = operator := by
  unfold againstNull
  split <;> simp_all

theorem ofToken_againstNull (h : ofToken (some operator) = operator) :
    ofToken (some (againstNull operator)) = againstNull operator := by
  unfold againstNull
  split
  · decide +kernel
  · decide +kernel
  · decide +kernel
  · exact h

theorem resolve_resolve_self (v : Value) (token : Option String) : resolve v (some (resolve v token)) = resolve v token := by
  rw [resolve, resolve]
  split
  · rw [ofToken_againstNull (ofToken_ofToken token), againstNull_of_not_mem (againstNull_not_mem _)]
  · exact ofToken_ofToken token

theorem resolve_of_isNull_eq_false (h : v.isNull = false) (token : Option String) : resolve v token = ofToken token := by
  rw [resolve, h, if_neg Bool.false_ne_true]

theorem resolve_null (token : Option String) : resolve .null token = againstNull (ofToken token) := rfl

/-- What is written for a value and a token is a normal form of the token. -/
structure IsNormalForm (written : Value → Option String → String) : Prop where
  again : ∀ v token, written v (some (written v token)) = written v token
  blanks : ∀ v left token right, Text.isBlankText left = true → Text.isBlankText right = true →
    written v (some (left ++ token ++ right)) = written v (some token)
  letters : ∀ v token token', Text.Recased token token' → written v (some token') = written v (some token)
  value : ∀ v w : Value, v.isNull = w.isNull → ∀ token, written v token = written w token
  null : ∀ token, written .null token ∉ ["=", "<>", "!="]
  equality : ∀ w : Value, w.isNull = false → ∀ token, written w token = "=" ↔ ∀ t ∈ token, EqualityToken t
  identical : ∀ w : Value, w.isNull = false → ∀ token, written w token = "=" → written .null token = "IS"
  distinct : ∀ w : Value, w.isNull = false → ∀ token, written w token = "<>" ∨ written w token = "!=" →
    written .null token = "IS NOT"

/-- The operator of a token is a normal form of it. It is the operator of itself, blanks around the token and the case
    of its ASCII letters do not change it, and the value counts only by being null or not. Against null it is never a
    sign of equality or inequality: what stands for equality is a test for identity, and what stands for inequality a
    test against it. -/
theorem resolve_isNormalForm : IsNormalForm resolve where
  again := resolve_resolve_self
  blanks v _ token _ hleft hright := resolve_congr_keyword v (Text.keyword_blanks_append_blanks hleft hright token)
  letters v _ _ h := resolve_congr_keyword v h.keyword_eq
  value _ _ h := resolve_congr h
  null token := againstNull_not_mem (ofToken token)
  equality w hw token := by rw [resolve_of_isNull_eq_false hw, ofToken_eq_equality_iff]
  identical w hw token h := by
    rw [resolve_of_isNull_eq_false hw] at h
    rw [resolve_null, h]
    rfl
  distinct w hw token h := by
    rw [resolve_of_isNull_eq_false hw] at h
    rw [resolve_null]
    rcases h with h | h
    · rw [h]
      rfl
    · rw [h]
      rfl

theorem resolve_isNormalForm_blanks :
    Text.isBlankText "\u2003\t" = true ∧ Text.isBlankText "\u0085" = true ∧ Text.Recased "not Like" "NOt lIKE" ∧
      resolve (.int 1) (some ("\u2003\t" ++ "NOt lIKE" ++ "\u0085")) = resolve (.int 1) (some "not Like") ∧
      resolve (.int 1) (some "not Like") = "NOT LIKE" ∧
      resolve (.int 1) (some " +1. ") = "=" ∧ resolve .null (some " +1. ") = "IS" ∧
      resolve (.text "") (some "!=") = "!=" ∧ resolve .null (some "!=") = "IS NOT" := by
  have hform := resolve_isNormalForm
  have hcase : Text.Recased "not Like" "NOt lIKE" := by
    simp [Text.Recased, Text.SameLetter]
  have hequal : resolve (.int 1) (some " +1. ") = "=" := by decide +kernel
  have hdiffer : resolve (.text "") (some "!=") = "!=" := by decide +kernel
  have hleft : Text.isBlankText "\u2003\t" = true := by decide
  have hright : Text.isBlankText "\u0085" = true := by decide
  refine ⟨hleft, hright, hcase, ?_, by decide +kernel, hequal, ?_, hdiffer, ?_⟩
  · exact (hform.blanks (.int 1) _ _ _ hleft hright).trans (hform.letters (.int 1) _ _ hcase)
  · exact hform.identical (.int 1) rfl (some " +1. ") hequal
  · exact hform.distinct (.text "") rfl (some "!=") (Or.inr hdiffer)

end Operator
end Criteria
