import Criteria.Proofs.EventOrder
import Criteria.Proofs.Pieces

/-! Lists one after the other. Each condition is checked by itself, so two lists make one tree exactly if each of them
    makes a tree, and the clauses of the second follow those of the first. Where the two texts meet, the inner
    parentheses give way to the connective. Only the fault of a group without members tells where its list begins: the
    members of the second list are counted on from the end of the first. -/

namespace Criteria
namespace Condition

variable {parent s : Connective} {c : Condition} {cs ds : List Condition}

/-- The member at the position is a group without members, and all members in front of it can be built. -/
inductive EmptyGroupAt : List Condition → Nat → Prop
  | here {connective : Option Connective} {after : List Condition} : EmptyGroupAt (.group connective [] :: after) 0
  | later {c : Condition} {cs : List Condition} {n : Nat} : c.Buildable → EmptyGroupAt cs n → EmptyGroupAt (c :: cs) (n + 1)

theorem EmptyGroupAt.outcome_resolveAll {n : Nat} (h : EmptyGroupAt cs n) (position : Nat) :
    (resolveAll parent position cs).outcome = .error (.emptyGroup (Decimal.text (position + n : Nat))) := by
  induction h generalizing position with
  | here =>
    rw [outcome_resolveAll_cons, outcome_group, List.isEmpty_nil, if_pos rfl]
    rfl
  | @later c cs n hc _ ih =>
    obtain ⟨clause, hclause⟩ := (buildable_iff parent position).mp hc
    rw [outcome_resolveAll_cons, hclause, ih, Nat.add_right_comm]
    rfl

/-- The position of a condition shows in nothing but the fault of a group without members. -/
theorem outcome_resolve_congr (h : ∀ connective, c ≠ .group connective []) (i j : Nat) :
    (c.resolve parent i).outcome = (c.resolve parent j).outcome := by
  cases c with
  | group connective children =>
    cases children with
    | nil => exact absurd rfl (h connective)
    | cons child children =>
      rw [outcome_group, outcome_group, List.isEmpty_cons]
      rfl
  | field name test => rw [outcome_field, outcome_field]
  | raw piece => rw [outcome_raw, outcome_raw]
  | tree t => rw [outcome_tree, outcome_tree]

theorem outcome_resolveAll_congr (h : ∀ n, ¬EmptyGroupAt cs n) (i j : Nat) :
    (resolveAll parent i cs).outcome = (resolveAll parent j cs).outcome := by
  induction cs generalizing i j with
  | nil => rfl
  | cons c cs ih =>
    -- The condition itself is at position zero, so it is no group without members.
    have hc : ∀ connective, c ≠ .group connective [] := by
      rintro connective rfl
      exact h 0 .here
    rw [outcome_resolveAll_cons, outcome_resolveAll_cons, outcome_resolve_congr hc i j]
    cases hclause : (c.resolve parent j).outcome with
    | error fault => rfl
    | ok clause =>
      -- A group without members counts only behind conditions that can be built.
      have hbuildable : c.Buildable := (buildable_iff parent j).mpr ⟨clause, hclause⟩
      rw [ih (fun n hn => h (n + 1) (.later hbuildable hn)) (i + 1) (j + 1)]

theorem outcome_resolveAll_append (cs ds : List Condition) (position : Nat) :
    (resolveAll parent position (cs ++ ds)).outcome = (resolveAll parent position cs).outcome >>= fun front =>
      (resolveAll parent (position + cs.length) ds).outcome.map (front ++ ·) := by
  induction cs generalizing position with
  | nil =>
    rw [List.nil_append, outcome_resolveAll_nil, List.length_nil, Nat.add_zero]
    cases (resolveAll parent position ds).outcome <;> rfl
  | cons c cs ih =>
    have hlength : position + (c :: cs).length = position + 1 + cs.length := by
      rw [List.length_cons, Nat.add_right_comm, Nat.add_assoc]
    rw [List.cons_append, outcome_resolveAll_cons, outcome_resolveAll_cons, ih, hlength]
    cases (c.resolve parent position).outcome with
    | error fault => rfl
    | ok clause =>
      cases (resolveAll parent (position + 1) cs).outcome with
      | error fault => rfl
      | ok front => cases (resolveAll parent (position + 1 + cs.length) ds).outcome <;> rfl

end Condition

namespace Tree

variable {s : Connective} {cs ds : List Condition} {t u w : Tree} {fault : Fault}

/-- The tree `w` has the clauses of `t` and then those of `u`. Where neither is empty, the connective takes the place of
    the last parenthesis of the one text and the first of the other. -/
structure Concatenates (s : Connective) (t u w : Tree) : Prop where
  size : w.size = t.size + u.size
  bindings : w.bindings.value = t.bindings.value ++ u.bindings.value
  left : u.isEmpty = true → w.render.value = t.render.value
  right : t.isEmpty = true → w.render.value = u.render.value
  text : t.isEmpty = false → u.isEmpty = false → ∃ front back, t.render.value = front ++ ")" ∧
    u.render.value = "(" ++ back ∧ w.render.value = front ++ " " ++ s.word ++ " " ++ back

theorem concatenates_append (ht : t.connective = s) (hu : u.connective = s) :
    Concatenates s t u ⟨s, t.clauses ++ u.clauses⟩ where
  size := List.length_append
  bindings := by
    rw [value_bindings, value_bindings, value_bindings, params_toFragment, params_toFragment, params_toFragment,
      List.flatMap_append]
  left hempty := by rw [List.isEmpty_iff.mp hempty, List.append_nil, ← ht]
  right hempty := by rw [List.isEmpty_iff.mp hempty, List.nil_append, ← hu]
  text htext hutext := by
    have hfront : t.clauses.map (·.toFragment.sql) ≠ [] := by simpa [isEmpty] using htext
    have hback : u.clauses.map (·.toFragment.sql) ≠ [] := by simpa [isEmpty] using hutext
    refine ⟨"(" ++ (" " ++ s.word ++ " ").intercalate (t.clauses.map (·.toFragment.sql)),
      (" " ++ s.word ++ " ").intercalate (u.clauses.map (·.toFragment.sql)) ++ ")", ?_, ?_, ?_⟩
    · rw [value_render, sql_toFragment, ht, Connective.enclose_of_ne_nil hfront]
    · rw [value_render, sql_toFragment, hu, Connective.enclose_of_ne_nil hback, String.append_assoc]
    · rw [value_render, sql_toFragment, List.map_append, Connective.enclose_of_ne_nil (by simp [hfront]),
        String.intercalate_append_of_ne_nil hfront hback]
      simp only [String.append_assoc]

theorem outcome_ofConditions_append (ht : (ofConditions s cs).outcome = .ok t) (ds : List Condition) :
    (ofConditions s (cs ++ ds)).outcome =
      (Condition.resolveAll s cs.length ds).outcome.map fun back => ⟨s, t.clauses ++ back⟩ := by
  rw [outcome_ofConditions] at ht ⊢
  obtain ⟨front, hfront, rfl⟩ := Outcome.map_eq_ok.mp ht
  rw [Condition.outcome_resolveAll_append, hfront, Nat.zero_add]
  cases (Condition.resolveAll s cs.length ds).outcome <;> rfl

theorem ofConditions_append_eq_ok (ht : (ofConditions s cs).outcome = .ok t) (hu : (ofConditions s ds).outcome = .ok u) :
    (ofConditions s (cs ++ ds)).outcome = .ok ⟨s, t.clauses ++ u.clauses⟩ := by
  obtain ⟨-, hclauses⟩ := ofConditions_eq_ok_iff.mp hu
  rw [outcome_ofConditions_append ht, Condition.resolveAll_eq_ok_iff.mpr hclauses]
  rfl

theorem ofConditions_append_eq_error (h : (ofConditions s cs).outcome = .error fault) (ds : List Condition) :
    (ofConditions s (cs ++ ds)).outcome = .error fault := by
  rw [outcome_ofConditions] at h ⊢
  rw [Condition.outcome_resolveAll_append, Outcome.map_eq_error.mp h]
  rfl

theorem ofConditions_append_of_emptyGroup (ht : (ofConditions s cs).outcome = .ok t) {n : Nat}
    (h : Condition.EmptyGroupAt ds n) : (ofConditions s ds).outcome = .error (.emptyGroup (Decimal.text n)) ∧
      (ofConditions s (cs ++ ds)).outcome = .error (.emptyGroup (Decimal.text (cs.length + n : Nat))) := by
  rw [outcome_ofConditions_append ht, outcome_ofConditions, h.outcome_resolveAll, h.outcome_resolveAll, Nat.zero_add]
  exact ⟨rfl, rfl⟩

theorem ofConditions_append_of_error (ht : (ofConditions s cs).outcome = .ok t)
    (hnone : ∀ n, ¬Condition.EmptyGroupAt ds n) (h : (ofConditions s ds).outcome = .error fault) :
    (ofConditions s (cs ++ ds)).outcome = .error fault := by
  rw [outcome_ofConditions] at h
  rw [outcome_ofConditions_append ht, Condition.outcome_resolveAll_congr hnone cs.length 0, Outcome.map_eq_error.mp h]
  rfl

/-- What two lists one after the other are built to, by what each of them is built to. -/
structure BuildsInTurn (s : Connective) (cs ds : List Condition) : Prop where
  both : (∃ w, (ofConditions s (cs ++ ds)).outcome = .ok w) ↔
    (∃ t, (ofConditions s cs).outcome = .ok t) ∧ ∃ u, (ofConditions s ds).outcome = .ok u
  tree : ∀ t u, (ofConditions s cs).outcome = .ok t → (ofConditions s ds).outcome = .ok u →
    ∃ w, (ofConditions s (cs ++ ds)).outcome = .ok w ∧ Concatenates s t u w
  first : ∀ fault, (ofConditions s cs).outcome = .error fault → (ofConditions s (cs ++ ds)).outcome = .error fault
  emptyGroup : ∀ t, (ofConditions s cs).outcome = .ok t → ∀ n, Condition.EmptyGroupAt ds n →
    (ofConditions s ds).outcome = .error (.emptyGroup (Decimal.text n)) ∧
    (ofConditions s (cs ++ ds)).outcome = .error (.emptyGroup (Decimal.text (cs.length + n : Nat)))
  second : ∀ t, (ofConditions s cs).outcome = .ok t → (∀ n, ¬Condition.EmptyGroupAt ds n) →
    ∀ fault, (ofConditions s ds).outcome = .error fault → (ofConditions s (cs ++ ds)).outcome = .error fault

/-- The tree of two lists one after the other is that of the first list followed by that of the second. A fault of the
    first list comes first. A fault of the second stays as it is, but for a group without members among its own members,
    which is then named by its position in the whole list. -/
theorem ofConditions_append (s : Connective) (cs ds : List Condition) : BuildsInTurn s cs ds where
  both := by simp only [Condition.exists_ofConditions_iff, List.forall_mem_append]
  tree t u ht hu := by
    obtain ⟨hs, -⟩ := ofConditions_eq_ok_iff.mp ht
    obtain ⟨hs', -⟩ := ofConditions_eq_ok_iff.mp hu
    exact ⟨_, ofConditions_append_eq_ok ht hu, concatenates_append hs hs'⟩
  first _ h := ofConditions_append_eq_error h ds
  emptyGroup _ ht _ hn := ofConditions_append_of_emptyGroup ht hn
  second _ ht hnone _ h := ofConditions_append_of_error ht hnone h

theorem ofConditions_append_shifted :
    ∃ cs ds bad t u w, cs = [.field "a" (.compare none .null), .raw ⟨"b > ?", [.int 1]⟩] ∧
      ds = [.group none [.field "c" (.like (.text "%")), .raw ⟨"d", []⟩]] ∧
      bad = ds ++ [.group (some .or) [], .field " " (.compare none .null)] ∧
      (ofConditions .and cs).outcome = .ok t ∧ (ofConditions .and ds).outcome = .ok u ∧
      (ofConditions .and (cs ++ ds)).outcome = .ok w ∧ Concatenates .and t u w ∧
      w.render.value = "(a IS NULL AND b > ? AND (c LIKE ? OR d))" ∧
      (ofConditions .and bad).outcome = .error (.emptyGroup "1") ∧
      (ofConditions .and (cs ++ bad)).outcome = .error (.emptyGroup "3") := by
  have hbad := (ofConditions_append .and [.field "a" (.compare none .null), .raw ⟨"b > ?", [.int 1]⟩]
    [.group none [.field "c" (.like (.text "%")), .raw ⟨"d", []⟩], .group (some .or) [],
      .field " " (.compare none .null)]).emptyGroup _ rfl 1 (.later (by decide) .here)
  have happend := (ofConditions_append .and [.field "a" (.compare none .null), .raw ⟨"b > ?", [.int 1]⟩]
    [.group none [.field "c" (.like (.text "%")), .raw ⟨"d", []⟩]]).tree _ _ rfl rfl
  obtain ⟨w, hw, hconcat⟩ := happend
  refine ⟨_, _, _, _, _, w, rfl, rfl, rfl, rfl, rfl, hw, hconcat, ?_, hbad.1, hbad.2⟩
  cases hw
  decide +kernel

end Tree
end Criteria
