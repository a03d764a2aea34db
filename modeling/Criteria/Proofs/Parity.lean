import Criteria.Proofs.Placeholder
import Criteria.Proofs.Rendered

/-! Placeholders and values stay in step. A piece of SQL is paired if it leaves no literal open and has one
    placeholder for each of its values. Everything that is written is paired, so a tree built from neutral fields
    and operators and from paired statements has one placeholder for each value it binds. -/

namespace Criteria
open Text

/-- Resolving an operator adds neither quote nor question mark to its token. -/
theorem Operator.neutral_kept : Operator.Kept Neutral where
  trim _ h := neutral_trim.mpr h
  toUpper _ h := neutral_toUpper.mpr h
  equal := neutral_of_plain
  unequal := neutral_of_plain
  identical := neutral_of_plain
  distinct := neutral_of_plain

namespace Fragment

/-- A piece with an even number of quotes and one placeholder for each of its values. -/
def Paired (piece : Fragment) : Prop :=
  Even (piece.sql.toList.count '\'') ∧ placeholders piece.sql = piece.params.length

theorem Paired.append {a b : Fragment} (ha : a.Paired) (hb : b.Paired) : (a ++ b).Paired := by
  refine ⟨?_, ?_⟩
  · rw [sql_append, String.toList_append, List.count_append]
    exact ha.1.add hb.1
  · rw [sql_append, placeholders_append ha.1, params_append, List.length_append, ha.2, hb.2]

theorem paired_plain {s : String} (h : s.toList.all isPlain = true) : (ofText s).Paired := by
  refine neutral_of_plain (List.all_eq_true.mpr fun c hc => ?_)
  rw [isMark_of_class (by decide) (by decide) (List.all_eq_true.mp h c hc)]
  rfl

/-- Rendering keeps pieces paired. -/
theorem paired_kept : Fragment.Kept Neutral Paired Paired where
  text _ h := h
  operator v _ h := Operator.neutral_kept.resolve v h
  plain _ h := paired_plain h
  placeholder _ := ⟨(by decide : Even ("?".toList.count '\'')), (by decide : placeholders "?" = 1)⟩
  given _ h := h
  append _ _ ha hb := ha.append hb
  parentheses a h := by
    have left : (ofText "(").Paired := neutral_of_plain
    have right : (ofText ")").Paired := neutral_of_plain
    exact (left.append h).append right

end Fragment

/-- A tree built from neutral fields and operators and from paired statements has an even number of quotes and as
    many placeholders as bindings. -/
theorem Tree.placeholders_build {s : Connective} {cs : List Condition} {t : Tree}
    (hcs : ∀ c ∈ cs, c.MadeOf Neutral Fragment.Paired) (ht : (Tree.ofConditions s cs).outcome = .ok t) :
    Even (t.build.value.sql.toList.count '\'') ∧ placeholders t.build.value.sql = t.build.value.params.length := by
  rw [Tree.value_build]
  exact (Tree.MadeOf.built hcs ht).kept Fragment.paired_kept

theorem Tree.placeholders_build_nested :
    ∃ t, (Tree.ofConditions .or [
        .field "it''s" (.compare (some " not like ") (.text "?'")),
        .group none [
          .field "b" (.oneOf .notIn [.int 1, .null, .int 1]),
          .raw ⟨"note = '?' AND x > ?", [.int 2]⟩],
        .field "id" (.inQuery .any (Statement.snapshot (⟨.and, [.field "c" (.like .null)]⟩ : Tree)).value),
        .tree ⟨.and, [.field "c" (.like .null)]⟩]).outcome = .ok t ∧
      Even (t.build.value.sql.toList.count '\'') ∧ placeholders t.build.value.sql = t.build.value.params.length := by
  have inner : Tree.MadeOf Neutral Fragment.Paired ⟨.and, [.field "c" (.like .null)]⟩ := by
    have hcs : ∀ c ∈ [Condition.field "c" (.like .null)], c.MadeOf Neutral Fragment.Paired := by
      intro c hc
      obtain rfl := List.mem_singleton.mp hc
      exact .field neutral_of_plain (fun _ h => by cases h) (fun _ h => by cases h)
    exact .built (s := .and) hcs rfl
  refine Exists.imp (fun _ ht => ⟨ht, placeholders_build (fun c hc => ?_) ht⟩) ⟨_, rfl⟩
  rcases List.mem_cons.mp hc with rfl | hc
  · refine .field ⟨by decide, by decide⟩ (fun token htoken => ?_) (fun _ h => by cases h)
    obtain rfl := Option.some.inj htoken
    exact neutral_of_plain
  rcases List.mem_cons.mp hc with rfl | hc
  · refine .group fun c hc => ?_
    rcases List.mem_cons.mp hc with rfl | hc
    · exact .field neutral_of_plain (fun _ h => by cases h) (fun _ h => by cases h)
    · obtain rfl := List.mem_singleton.mp hc
      exact .raw (.given ⟨by decide, by decide⟩)
  rcases List.mem_cons.mp hc with rfl | hc
  · refine .field neutral_of_plain (fun _ h => by cases h) (fun piece hp => ?_)
    obtain rfl := Option.some.inj hp
    exact .snapshot inner
  · obtain rfl := List.mem_singleton.mp hc
    exact .tree inner

end Criteria
