import Criteria.Modifier
import Criteria.Proofs.Spelling

/-! Keywords. The classes of modifier tokens exclude each other: a range and a pattern are asked for by a keyword, a
    set by a phrase, and a token with such a keyword is no phrase for a set. So each class can be told by its own
    spelling alone, in whatever order the classes are tried. -/

namespace Criteria

theorem SetRelation.ofKeyword?_eq_some_iff {token : String} {relation : SetRelation} :
    ofKeyword? token = Option.some relation ↔ Text.phrase token = relation.words := by
  unfold ofKeyword?
  constructor
  · intro h
    split at h <;> cases h <;> assumption
  · intro h
    rw [h]
    cases relation <;> rfl

theorem SetRelation.ofKeyword?_eq_none_iff {token : String} :
    ofKeyword? token = none ↔ ∀ relation : SetRelation, Text.phrase token ≠ relation.words := by
  rw [Option.eq_none_iff_forall_ne_some]
  simp only [ne_eq, ofKeyword?_eq_some_iff]

/-- A keyword of one word that names no relation is no phrase for one. -/
theorem SetRelation.phrase_ne_words {token word : String} (h : Text.keyword token = word) (hne : word ≠ "")
    (hblank : word.toList.all (fun c => !Text.isBlank c) = true)
    (hword : ∀ relation : SetRelation, word ≠ relation.words) (relation : SetRelation) :
    Text.phrase token ≠ relation.words := by
  have hphrase : Text.phrase token = word := by
    rw [Text.phrase_eq_keyword (h ▸ hne), h]
    intro c hc
    have := List.all_eq_true.mp hblank c (h ▸ hc)
    simpa using this
  rw [hphrase]
  exact hword relation

namespace Modifier
variable {token : String}

theorem phrase_ne_words_of_between (h : Text.keyword token = "BETWEEN") (relation : SetRelation) :
    Text.phrase token ≠ relation.words :=
  SetRelation.phrase_ne_words h (by decide) (by decide) (fun r => by cases r <;> decide) relation

theorem phrase_ne_words_of_like (h : Text.keyword token = "LIKE") (relation : SetRelation) :
    Text.phrase token ≠ relation.words :=
  SetRelation.phrase_ne_words h (by decide) (by decide) (fun r => by cases r <;> decide) relation

theorem ofToken_of_between (h : Text.keyword token = "BETWEEN") : ofToken token = .between := by
  rw [ofToken, if_pos h]

theorem ofToken_of_set {relation : SetRelation} (h : Text.phrase token = relation.words) :
    ofToken token = .set relation := by
  have hne : Text.keyword token ≠ "BETWEEN" := fun hb => phrase_ne_words_of_between hb relation h
  simp only [ofToken, if_neg hne, SetRelation.ofKeyword?_eq_some_iff.mpr h]

theorem ofToken_of_like (h : Text.keyword token = "LIKE") : ofToken token = .like := by
  have hnone : SetRelation.ofKeyword? token = none :=
    SetRelation.ofKeyword?_eq_none_iff.mpr (phrase_ne_words_of_like h)
  rw [ofToken, if_neg (by rw [h]; decide), hnone]
  simp only [h, if_true]

theorem ofToken_of_other (hb : Text.keyword token ≠ "BETWEEN") (hs : ∀ relation : SetRelation,
    Text.phrase token ≠ relation.words) (hl : Text.keyword token ≠ "LIKE") : ofToken token = .comparison := by
  rw [ofToken, if_neg hb, SetRelation.ofKeyword?_eq_none_iff.mpr hs]
  simp only [hl, if_false]

theorem ofToken_trim (token : String) : ofToken (Text.trim token) = ofToken token := by
  rw [ofToken, ofToken, SetRelation.ofKeyword?, SetRelation.ofKeyword?, Text.keyword_trim, Text.phrase_trim]

/-- The class of a token, by its spelling. -/
theorem ofToken_cases (token : String) :
    (Text.keyword token = "BETWEEN" ∧ ofToken token = .between) ∨
    (∃ relation : SetRelation, Text.phrase token = relation.words ∧ ofToken token = .set relation) ∨
    (Text.keyword token = "LIKE" ∧ ofToken token = .like) ∨
    (Text.keyword token ≠ "BETWEEN" ∧ (∀ relation : SetRelation, Text.phrase token ≠ relation.words) ∧
      Text.keyword token ≠ "LIKE" ∧ ofToken token = .comparison) := by
  by_cases hb : Text.keyword token = "BETWEEN"
  · exact Or.inl ⟨hb, ofToken_of_between hb⟩
  by_cases hs : ∃ relation : SetRelation, Text.phrase token = relation.words
  · obtain ⟨relation, hr⟩ := hs
    exact Or.inr (Or.inl ⟨relation, hr, ofToken_of_set hr⟩)
  have hs : ∀ relation : SetRelation, Text.phrase token ≠ relation.words := fun relation h => hs ⟨relation, h⟩
  by_cases hl : Text.keyword token = "LIKE"
  · exact Or.inr (Or.inr (Or.inl ⟨hl, ofToken_of_like hl⟩))
  · exact Or.inr (Or.inr (Or.inr ⟨hb, hs, hl, ofToken_of_other hb hs hl⟩))

/-- Keywords and comparison operators may head a list, and no other token. -/
theorem leadsList_iff : leadsList token = true ↔
    Text.keyword token = "BETWEEN" ∨ Text.keyword token = "LIKE" ∨
      (∃ relation : SetRelation, Text.phrase token = relation.words) ∨ Text.keyword token ∈ Operator.comparisons := by
  unfold leadsList
  rcases ofToken_cases token with ⟨h, ht⟩ | ⟨relation, h, ht⟩ | ⟨h, ht⟩ | ⟨hb, hs, hl, ht⟩
  · simp [ht, h]
  · simp only [ht, true_iff]
    exact Or.inr (Or.inr (Or.inl ⟨relation, h⟩))
  · simp [ht, h]
  · simp [ht, hb, hl, hs, Operator.isComparison]

end Modifier
end Criteria
