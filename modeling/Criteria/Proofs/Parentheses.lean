import Criteria.Proofs.Rendered
import Criteria.Proofs.Spelling
import Mathlib.Data.List.Infix

/-! Parentheses in SQL text. Read from left to right, a balanced text closes no parenthesis that it has not opened, and
    in the end it has closed all of them. A tree built from balanced texts is a balanced text between parentheses, so
    its first parenthesis stays open up to its last character and no clause gets out of it. -/

namespace Criteria
namespace Text

/-- How many more parentheses the characters open than they close. -/
def depth (cs : List Char) : Int := cs.count '(' - cs.count ')'

theorem depth_append (a b : List Char) : depth (a ++ b) = depth a + depth b := by
  simp only [depth, List.count_append]
  omega

theorem depth_cons_open (cs : List Char) : depth ('(' :: cs) = depth cs + 1 := by
  simp only [depth, List.count_cons, beq_iff_eq]
  simp
  omega

theorem depth_parentheses (cs : List Char) : depth ('(' :: (cs ++ [')'])) = depth cs := by
  rw [depth_cons_open, depth_append, show depth [')'] = -1 by decide]
  omega

theorem depth_eq_zero_of_forall {cs : List Char} (h : ∀ c ∈ cs, c ≠ '(' ∧ c ≠ ')') : depth cs = 0 := by
  have hopen : cs.count '(' = 0 := List.count_eq_zero.mpr fun hc => (h _ hc).1 rfl
  have hclose : cs.count ')' = 0 := List.count_eq_zero.mpr fun hc => (h _ hc).2 rfl
  rw [depth, hopen, hclose, Int.sub_self]

/-- Raising a letter neither makes nor unmakes a parenthesis. -/
theorem depth_map_toUpper (cs : List Char) : depth (cs.map Char.toUpper) = depth cs := by
  have hcount : ∀ d : Char, (∀ c : Char, c.toUpper = d ↔ c = d) → (cs.map Char.toUpper).count d = cs.count d := by
    intro d hd
    rw [List.count_eq_countP, List.count_eq_countP, List.countP_map]
    refine List.countP_congr fun c _ => ?_
    simp [hd c]
  rw [depth, depth, hcount '(' fun c => toUpper_eq_iff (by decide) (by decide),
    hcount ')' fun c => toUpper_eq_iff (by decide) (by decide)]

/-! ### Balanced texts -/

/-- No front of the text closes more parentheses than it opens, and the whole text closes all that it opens. -/
structure Balanced (s : String) : Prop where
  nonneg : ∀ front, front <+: s.toList → 0 ≤ depth front
  settled : depth s.toList = 0

theorem balanced_iff_inits {s : String} :
    Balanced s ↔ (∀ front ∈ s.toList.inits, 0 ≤ depth front) ∧ depth s.toList = 0 := by
  simp only [List.mem_inits]
  exact ⟨fun h => ⟨h.nonneg, h.settled⟩, fun h => ⟨h.1, h.2⟩⟩

instance (s : String) : Decidable (Balanced s) := decidable_of_iff _ balanced_iff_inits.symm

theorem balanced_of_no_parenthesis {s : String} (h : s.toList.all (fun c => c != '(' && c != ')') = true := by decide) :
    Balanced s := by
  have hall : ∀ c ∈ s.toList, c ≠ '(' ∧ c ≠ ')' := by simpa [List.all_eq_true] using h
  constructor
  · intro front hfront
    exact Int.le_of_eq (depth_eq_zero_of_forall fun c hc => hall c (hfront.subset hc)).symm
  · exact depth_eq_zero_of_forall hall

theorem Balanced.append {s t : String} (hs : Balanced s) (ht : Balanced t) : Balanced (s ++ t) where
  nonneg front hfront := by
    rw [String.toList_append] at hfront
    -- A front ends within the first text, or takes all of it and a front of the second.
    rcases List.prefix_or_prefix_of_prefix hfront (List.prefix_append _ _) with h | ⟨rest, rfl⟩
    · exact hs.nonneg front h
    · rw [depth_append, hs.settled, Int.zero_add]
      exact ht.nonneg rest ((List.prefix_append_right_inj _).mp hfront)
  settled := by rw [String.toList_append, depth_append, hs.settled, ht.settled, Int.add_zero]

theorem toList_parentheses (s : String) : ("(" ++ s ++ ")").toList = '(' :: (s.toList ++ [')']) := by
  simp

/-- Between parentheses a balanced text leaves the first one open up to the last character. -/
theorem Balanced.depth_pos {s : String} (hs : Balanced s) {front : List Char}
    (hfront : front <+: '(' :: (s.toList ++ [')'])) (hne : front ≠ []) (hall : front ≠ '(' :: (s.toList ++ [')'])) :
    0 < depth front := by
  -- The front has the first parenthesis and not the last one, so it is one deeper than a front of the text.
  rcases List.prefix_cons_iff.mp hfront with rfl | ⟨rest, rfl, hrest⟩
  · exact absurd rfl hne
  · rcases List.prefix_concat_iff.mp hrest with rfl | hrest
    · exact absurd rfl hall
    · have := hs.nonneg rest hrest
      rw [depth_cons_open]
      omega

theorem Balanced.parentheses {s : String} (hs : Balanced s) : Balanced ("(" ++ s ++ ")") := by
  have hsettled : depth ("(" ++ s ++ ")").toList = 0 := by rw [toList_parentheses, depth_parentheses, hs.settled]
  refine ⟨fun front hfront => ?_, hsettled⟩
  by_cases hall : front = ("(" ++ s ++ ")").toList
  · exact Int.le_of_eq (hall ▸ hsettled.symm)
  · rw [toList_parentheses] at hfront hall
    cases front with
    | nil => decide
    | cons c rest => exact Int.le_of_lt (hs.depth_pos hfront (List.cons_ne_nil c rest) hall)

theorem balanced_trim {s : String} (h : Balanced s) : Balanced (trim s) := by
  obtain ⟨left, right, hs, hleft, hright⟩ := exists_eq_trimmed s.toList
  have hblank : ∀ cs : List Char, (∀ c ∈ cs, isBlank c = true) → depth cs = 0 := by
    intro cs hcs
    refine depth_eq_zero_of_forall fun c hc => ⟨?_, ?_⟩ <;> rintro rfl
    · exact absurd (hcs _ hc) (by decide)
    · exact absurd (hcs _ hc) (by decide)
  constructor
  · intro front hfront
    -- A front of the trimmed text is a front of the text once the blanks before it are put back, and blanks have no
    -- depth.
    have hlonger : left ++ front <+: s.toList := by
      rw [hs, List.append_assoc, List.prefix_append_right_inj]
      rw [toList_trim] at hfront
      exact List.prefix_append_of_prefix hfront
    have := h.nonneg _ hlonger
    rwa [depth_append, hblank left hleft, Int.zero_add] at this
  · have := h.settled
    rw [hs, depth_append, depth_append, hblank left hleft, hblank right hright] at this
    rw [toList_trim]
    omega

theorem balanced_toUpper {s : String} (h : Balanced s) : Balanced s.toUpper where
  nonneg front hfront := by
    rw [toList_toUpper] at hfront
    obtain ⟨lower, hlower, rfl⟩ := List.prefix_map_iff.mp hfront
    rw [depth_map_toUpper]
    exact h.nonneg lower hlower
  settled := by rw [toList_toUpper, depth_map_toUpper, h.settled]

end Text

open Text

theorem Operator.balanced_kept : Operator.Kept Balanced where
  trim _ h := balanced_trim h
  toUpper _ h := balanced_toUpper h
  equal := balanced_of_no_parenthesis
  unequal := balanced_of_no_parenthesis
  identical := balanced_of_no_parenthesis
  distinct := balanced_of_no_parenthesis

/-- Rendering keeps texts balanced, and the values have no part in it. -/
theorem Fragment.balanced_kept :
    Fragment.Kept Balanced (fun piece => Balanced piece.sql) fun piece => Balanced piece.sql where
  text _ h := h
  operator v _ h := Operator.balanced_kept.resolve v h
  plain s h := by
    refine balanced_of_no_parenthesis (List.all_eq_true.mpr fun c hc => ?_)
    have hc : isPlain c = true := List.all_eq_true.mp h c hc
    rw [Bool.and_eq_true, bne_iff_ne, bne_iff_ne]
    constructor <;> rintro rfl
    · exact absurd hc (by decide)
    · exact absurd hc (by decide)
  placeholder _ := (balanced_of_no_parenthesis : Balanced "?")
  given _ h := h
  append _ _ ha hb := ha.append hb
  parentheses _ h := h.parentheses

/-- A tree built from balanced texts is a balanced text between parentheses: whatever its values are, every front of it
    but the whole of it leaves a parenthesis open. -/
theorem Tree.render_enclosed {s : Connective} {cs : List Condition} {t : Tree}
    (hcs : ∀ c ∈ cs, c.MadeOf Balanced fun piece => Balanced piece.sql) (ht : (Tree.ofConditions s cs).outcome = .ok t) :
    ∃ inner, t.render.value = "(" ++ inner ++ ")" ∧ Balanced inner ∧
      ∀ front, front <+: t.render.value.toList → front ≠ [] → front ≠ t.render.value.toList → 0 < depth front := by
  have hclauses : ∀ clause ∈ t.clauses, Balanced clause.toFragment.sql := by
    intro clause hclause
    obtain ⟨c, hc, hg⟩ := Condition.exists_gives (Tree.ofConditions_eq_ok_iff.mp ht).2 hclause
    exact (hcs c hc).kept Fragment.balanced_kept hg
  obtain ⟨inner, htree, hinner⟩ := Fragment.balanced_kept.enclosed hclauses
  have hrender : t.render.value = "(" ++ inner.sql ++ ")" := by
    rw [Tree.value_render, htree]
    rfl
  refine ⟨inner.sql, hrender, hinner, fun front hfront hne hall => ?_⟩
  rw [hrender, toList_parentheses] at hfront hall
  exact hinner.depth_pos hfront hne hall

/-- Closing parentheses among the values, balanced ones in a field, an operator and an expression, and a tautology inside. -/
theorem Tree.render_enclosed_nested :
    ∃ t, (Tree.ofConditions .or [
        .field "lower(a)" (.compare (some " =any() ") (.text ")")),
        .group none [
          .field "b" (.oneOf .notIn [.text "(", .null]),
          .raw ⟨"f(?, (c)) > 0", [.text "))"]⟩],
        .field "d" (.inQuery .isIn ⟨"SELECT (e) FROM f", []⟩),
        .tree .empty]).outcome = .ok t ∧
      (∃ inner, t.render.value = "(" ++ inner ++ ")" ∧ Balanced inner ∧
        ∀ front, front <+: t.render.value.toList → front ≠ [] → front ≠ t.render.value.toList → 0 < depth front) ∧
      t.render.value =
        "(lower(a) =ANY() ? OR (b NOT IN (?, NULL) AND f(?, (c)) > 0) OR d IN (SELECT (e) FROM f) OR (1=1))" := by
  have hfirst : (Condition.field "lower(a)" (.compare (some " =any() ") (.text ")"))).MadeOf Balanced
      fun piece => Balanced piece.sql := by
    refine .field (by decide) (fun token htoken => ?_) (fun _ h => by cases h)
    obtain rfl := Option.some.inj htoken
    decide
  have hset : (Condition.field "b" (.oneOf .notIn [.text "(", .null])).MadeOf Balanced fun piece => Balanced piece.sql :=
    .field balanced_of_no_parenthesis (fun _ h => by cases h) (fun _ h => by cases h)
  have hraw : (Condition.raw ⟨"f(?, (c)) > 0", [.text "))"]⟩).MadeOf Balanced fun piece => Balanced piece.sql :=
    .raw (.given (by decide : Balanced "f(?, (c)) > 0"))
  have hquery : (Condition.field "d" (.inQuery .isIn ⟨"SELECT (e) FROM f", []⟩)).MadeOf Balanced
      fun piece => Balanced piece.sql := by
    refine .field balanced_of_no_parenthesis (fun _ h => by cases h) (fun piece hpiece => ?_)
    obtain rfl := Option.some.inj hpiece
    exact .given (by decide : Balanced "SELECT (e) FROM f")
  have hnone : ∀ c ∈ ([] : List Condition), c.MadeOf Balanced fun piece => Balanced piece.sql := nofun
  have hempty : Tree.empty.MadeOf Balanced fun piece => Balanced piece.sql := .built (s := .and) hnone rfl
  have hgroup : (Condition.group none [.field "b" (.oneOf .notIn [.text "(", .null]),
      .raw ⟨"f(?, (c)) > 0", [.text "))"]⟩]).MadeOf Balanced fun piece => Balanced piece.sql :=
    .group (List.forall_mem_cons.mpr ⟨hset, List.forall_mem_singleton.mpr hraw⟩)
  have hcs := List.forall_mem_cons.mpr ⟨hfirst, List.forall_mem_cons.mpr ⟨hgroup, List.forall_mem_cons.mpr
    ⟨hquery, List.forall_mem_singleton.mpr (.tree hempty)⟩⟩⟩
  exact ⟨_, rfl, Tree.render_enclosed (s := .or) hcs rfl, by decide +kernel⟩

end Criteria
