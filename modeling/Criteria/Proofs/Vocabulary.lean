import Criteria.Proofs.NumericToken
import Criteria.Proofs.Spelling

/-! The operators that are written. A token is free text, but a number and the tokens that may head a list are written
    as one of ten operators, whatever their case and the blanks around them. -/

namespace Criteria

namespace Text

theorem trimmed_of_no_blank {cs : List Char} (h : ∀ c ∈ cs, isBlank c = false) : trimmed cs = cs := by
  have hfront : ∀ ds : List Char, (∀ c ∈ ds, isBlank c = false) → ds.dropWhile isBlank = ds := by
    intro ds hds
    cases ds with
    | nil => rfl
    | cons d ds => rw [List.dropWhile_cons_of_neg (by simp [hds d List.mem_cons_self])]
  rw [trimmed, hfront cs h, hfront cs.reverse fun c hc => h c (List.mem_reverse.mp hc), List.reverse_reverse]

end Text

namespace Operator

theorem isBlank_of_isDigit {c : Char} (h : c.isDigit = true) : Text.isBlank c = false := by
  have hdigit := toNat_of_isDigit h
  simp only [Text.isBlank, Text.blankRanges, List.any_cons, List.any_nil, Bool.or_false]
  grind

theorem isBlank_of_mem_isNumeric {cs : List Char} (h : isNumeric cs = true) : ∀ c ∈ cs, Text.isBlank c = false :=
  forall_mem_of_isNumeric (fun _ hc => isBlank_of_isDigit hc) (by decide) (by decide) (by decide) h

/-- No character of a numeric token is a letter. -/
theorem toNat_lt_of_mem_isNumeric {cs : List Char} (h : isNumeric cs = true) : ∀ c ∈ cs, c.toNat < 65 := by
  refine forall_mem_of_isNumeric (fun c hc => ?_) (by decide) (by decide) (by decide) h
  have hdigit := toNat_of_isDigit hc
  omega

theorem toUpper_of_isNumericToken {token : String} (h : isNumericToken token = true) : token.toUpper = token :=
  (Text.toUpper_eq_iff_of_no_letter (toNat_lt_of_mem_isNumeric h)).mpr rfl

theorem ofToken_trim (token : String) : ofToken (some (Text.trim token)) = ofToken (some token) := by
  rw [ofToken, ofToken, Text.trim_trim]

/-- Only the keyword of a token counts: it is the operator, unless it is empty, the mark of negation or a number. -/
theorem ofToken_eq_keyword (token : String) : ofToken (some token) =
    if Text.keyword token = "" then "="
    else if Text.keyword token = "!" then "<>"
    else if isNumericToken (Text.keyword token) = true then "="
    else Text.keyword token := by
  rw [ofToken]
  split
  · rename_i htrim
    rw [if_pos ((Text.keyword_eq_iff_of_no_letter (by simp)).mpr htrim)]
  · rename_i htrim
    have hkeyword := (Text.keyword_eq_iff_of_no_letter (by simp)).mpr htrim
    rw [hkeyword]
    decide
  · rename_i hempty hmark
    rw [if_neg fun h => hempty ((Text.keyword_eq_iff_of_no_letter (by simp)).mp h),
      if_neg fun h => hmark ((Text.keyword_eq_iff_of_no_letter (by simp)).mp h)]
    by_cases hnumeric : isNumericToken (Text.trim token) = true
    · rw [if_pos hnumeric, Text.keyword, toUpper_of_isNumericToken hnumeric, if_pos hnumeric]
    · rw [if_neg hnumeric, if_neg]
      · rfl
      · intro h
        -- A keyword that is a number has no letters, so the trimmed token is that number as well.
        rw [← (Text.keyword_eq_iff_of_no_letter (toNat_lt_of_mem_isNumeric h)).mp rfl] at h
        exact hnumeric h

/-- A number stands for equality. -/
theorem ofToken_of_isNumericToken {token : String} (h : isNumericToken token = true) : ofToken (some token) = "=" := by
  have htrim : Text.trim token = token := by
    rw [← String.toList_inj, Text.toList_trim]
    exact Text.trimmed_of_no_blank (isBlank_of_mem_isNumeric h)
  rw [ofToken, htrim]
  split
  · rfl
  · exact absurd h (by decide)
  · rw [if_pos h]

/-- The operators that a number or a token at the head of a list is written as. -/
def vocabulary : List String := ["=", "<>", "!=", "<", "<=", ">", ">=", "IS", "IS NOT", "NOT LIKE"]

theorem ofToken_mem_of_isComparison {token : String} (h : isComparison token = true) :
    ofToken (some token) ∈ vocabulary := by
  have hkeyword : Text.keyword token ∈ comparisons := List.contains_iff_mem.mp h
  rw [ofToken_eq_keyword]
  split
  · decide
  · split
    · decide
    · rename_i hmark
      split
      · decide
      · rcases List.mem_cons.mp hkeyword with hup | hmem
        · exact absurd hup hmark
        · exact hmem

theorem againstNull_mem {operator : String} (h : operator ∈ vocabulary) : againstNull operator ∈ vocabulary := by
  have hall : ∀ o ∈ vocabulary, againstNull o ∈ vocabulary := by decide
  exact hall operator h

/-- No token, a number or a known comparison operator. -/
def Known (token : Option String) : Prop := ∀ t ∈ token, isNumericToken t = true ∨ isComparison t = true

instance (token : Option String) : Decidable (Known token) :=
  inferInstanceAs (Decidable (∀ t ∈ token, isNumericToken t = true ∨ isComparison t = true))

theorem resolve_mem_vocabulary (v : Value) {token : Option String} (h : Known token) :
    resolve v token ∈ vocabulary := by
  have hof : ofToken token ∈ vocabulary := by
    cases token with
    | none => decide
    | some t =>
      rcases h t rfl with hnumeric | hcomparison
      · rw [ofToken_of_isNumericToken hnumeric]
        decide
      · exact ofToken_mem_of_isComparison hcomparison
  rw [resolve]
  split
  · exact againstNull_mem hof
  · exact hof

end Operator
end Criteria
