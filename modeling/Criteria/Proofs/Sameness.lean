import Criteria.Proofs.Alike
import Criteria.Proofs.FirstOccurrence

/-! Sameness carried through building and rendering. Sameness of values is symmetric and transitive, but it is not
    reflexive and leaves the spelling of a value open. Building and rendering ask no more of a value than it keeps, so
    the same conditions are refused for one fault or give the same trees, and the same trees give one text and values
    that are the same one by one. -/

namespace Criteria

theorem isEqv_iff {α : Type} {r : α → α → Bool} {l m : List α} :
    l.isEqv m r = true ↔ List.Forall₂ (fun a b => r a b = true) l m := by
  induction l generalizing m with
  | nil => cases m <;> simp [List.isEqv]
  | cons a l ih => cases m <;> simp [List.isEqv, ih]

theorem isEmpty_eq_of_forall₂ {α : Type} {r : α → α → Prop} {l m : List α} (h : List.Forall₂ r l m) :
    l.isEmpty = m.isEmpty := by
  cases h <;> rfl

namespace Value

/-- Values that are the same one by one. -/
abbrev SameEach (vs ws : List Value) : Prop := List.Forall₂ (fun v w => v.same w = true) vs ws

variable {k k' v w : Value} {kept kept' vs ws : List Value}

theorem isNull_eq_of_same (h : v.same w = true) : v.isNull = w.isNull := by
  rcases same_iff.mp h with ⟨x, y, rfl, rfl, -⟩ | ⟨-, rfl⟩
  · rfl
  · rfl

/-- Values that are the same are told alike from others, although they need not be equal. -/
theorem same_eq_of_same (hk : k.same k' = true) (hv : v.same w = true) : k.same v = k'.same w := by
  rw [Bool.eq_iff_iff]
  constructor
  · intro h
    exact same_trans (same_trans (same_comm k' k ▸ hk) h) hv
  · intro h
    exact same_trans (same_trans hk h) (same_comm w v ▸ hv)

/-- The same values are repeated after the same kept ones. -/
theorem SameEach.any_same_eq (hkept : SameEach kept kept') (hv : v.same w = true) :
    kept.any (·.same v) = kept'.any (·.same w) := by
  induction hkept with
  | nil => rfl
  | cons hk _ ih => rw [List.any_cons, List.any_cons, ih, same_eq_of_same hk hv]

/-- The same places of two lists are kept, because the kept values tell the same repetitions. -/
theorem SameEach.freshAfter (hkept : SameEach kept kept') (h : SameEach vs ws) :
    SameEach (freshAfter kept vs) (freshAfter kept' ws) := by
  induction h generalizing kept kept' with
  | nil => exact .nil
  | cons hv _ ih =>
    -- A value is kept in both lists or in neither, and then the kept values stay the same one by one.
    rw [Value.freshAfter, Value.freshAfter, hkept.any_same_eq hv]
    split
    · exact ih hkept
    · exact .cons hv (ih (List.rel_append hkept (.cons hv .nil)))

theorem SameEach.distinct (h : SameEach vs ws) : SameEach (distinct vs) (distinct ws) :=
  SameEach.freshAfter .nil h

end Value

namespace Fragment
variable {a a' b b' : Fragment}

theorem same_iff : a.same b = true ↔ a.sql = b.sql ∧ Value.SameEach a.params b.params := by
  simp [same, isEqv_iff]

theorem same_ofText (sql : String) : (ofText sql).same (ofText sql) = true := same_iff.mpr ⟨rfl, .nil⟩

theorem same_append (ha : a.same a' = true) (hb : b.same b' = true) : (a ++ b).same (a' ++ b') = true := by
  obtain ⟨hasql, haparams⟩ := same_iff.mp ha
  obtain ⟨hbsql, hbparams⟩ := same_iff.mp hb
  refine same_iff.mpr ⟨?_, List.rel_append haparams hbparams⟩
  rw [sql_append, sql_append, hasql, hbsql]

theorem same_join (separator : String) {pieces pieces' : List Fragment}
    (h : List.Forall₂ (fun a b => a.same b = true) pieces pieces') :
    (join separator pieces).same (join separator pieces') = true := by
  induction h with
  | nil => exact same_ofText ""
  | cons hp hrest ih =>
    cases hrest with
    | nil => exact hp
    | cons hq hrest =>
      rw [join_cons_cons, join_cons_cons]
      exact same_append (same_append hp (same_ofText separator)) ih

end Fragment

namespace Dialect
open Fragment
variable (d : Dialect)

theorem same_valueFragment {v w : Value} (h : v.same w = true) :
    (d.valueFragment v).same (d.valueFragment w) = true := by
  have hnull := Value.isNull_eq_of_same h
  refine Fragment.same_iff.mpr ⟨d.sql_valueFragment_congr hnull, ?_⟩
  rw [params_valueFragment, params_valueFragment, hnull]
  split
  · exact .nil
  · exact .cons h .nil

/-- A set is written the same for the same values, as the same places of it are kept. -/
theorem same_setFragment {vs ws : List Value} (h : Value.SameEach vs ws) :
    (d.setFragment vs).same (d.setFragment ws) = true := by
  rw [setFragment_eq_join, setFragment_eq_join]
  apply Fragment.same_join
  rw [List.forall₂_map_left_iff, List.forall₂_map_right_iff]
  exact h.distinct.imp fun _ _ => d.same_valueFragment

end Dialect

/-! ### Tests, clauses and trees -/

open Fragment Dialect in
/-- The same tests are written the same. The operator depends on a value by null alone, which sameness respects. -/
theorem Test.same_fragment {test test' : Test} (h : test.same test' = true) (name : String) :
    (test.fragment name).same (test'.fragment name) = true := by
  revert h
  fun_cases Test.same test test' with
  | case1 operator v operator' v' =>
    intro h
    obtain ⟨rfl, hv⟩ : operator = operator' ∧ v.same v' = true := by simpa using h
    rw [fragment, fragment, Operator.resolve_congr (Value.isNull_eq_of_same hv)]
    exact same_append (same_ofText _) (same_valueFragment _ hv)
  | case2 low high low' high' =>
    intro h
    obtain ⟨hlow, hhigh⟩ : low.same low' = true ∧ high.same high' = true := by simpa using h
    have hbetween := same_append (same_ofText (name ++ " BETWEEN ")) (same_valueFragment .generic hlow)
    exact same_append (same_append hbetween (same_ofText _)) (same_valueFragment _ hhigh)
  | case3 relation vs relation' vs' =>
    intro h
    obtain ⟨rfl, hvs⟩ : relation = relation' ∧ Value.SameEach vs vs' := by simpa [isEqv_iff] using h
    exact same_append (same_append (same_ofText _) (same_setFragment _ hvs)) (same_ofText _)
  | case4 relation query relation' query' =>
    intro h
    obtain ⟨rfl, hquery⟩ : relation = relation' ∧ query.same query' = true := by simpa using h
    exact same_append (same_append (same_ofText _) hquery) (same_ofText _)
  | case5 pattern pattern' => exact fun h => same_append (same_ofText _) (same_valueFragment _ h)
  | case6 expression expression' => exact fun h => same_append (same_ofText _) h
  | case7 query query' => exact fun h => same_append (same_append (same_ofText _) h) (same_ofText _)
  | case8 =>
    intro h
    cases h

/-- Only a set without members is at fault, and sameness leaves the number of members. -/
theorem Test.fault?_eq_of_same {test test' : Test} (h : test.same test' = true) (name : String) :
    test.fault? name = test'.fault? name := by
  revert h
  fun_cases Test.same test test' with
  | case3 relation vs relation' vs' =>
    intro h
    obtain ⟨rfl, hvs⟩ : relation = relation' ∧ Value.SameEach vs vs' := by simpa [isEqv_iff] using h
    cases hvs <;> rfl
  | case8 =>
    intro h
    cases h
  | _ => exact fun _ => rfl

theorem Clause.same_toFragment {clause clause' : Clause} (h : clause.same clause' = true) :
    clause.toFragment.same clause'.toFragment = true := by
  revert h
  fun_cases Clause.same clause clause' with
  | case1 name test name' test' =>
    intro h
    obtain ⟨rfl, htest⟩ : name = name' ∧ test.same test' = true := by simpa using h
    exact Test.same_fragment htest name
  | case2 piece piece' => exact id
  | case3 =>
    intro h
    cases h

namespace Tree
variable {t u : Tree}

theorem same_iff : t.same u = true ↔
    t.connective = u.connective ∧ List.Forall₂ (fun a b => Clause.same a b = true) t.clauses u.clauses := by
  simp [same, isEqv_iff]

/-- The same trees are written with one text and the same values. -/
theorem same_toFragment (h : t.same u = true) : t.toFragment.same u.toFragment = true := by
  obtain ⟨hconnective, hclauses⟩ := same_iff.mp h
  have hpieces : List.Forall₂ (fun a b => Fragment.same a b = true) (t.clauses.map Clause.toFragment)
      (u.clauses.map Clause.toFragment) := by
    rw [List.forall₂_map_left_iff, List.forall₂_map_right_iff]
    exact hclauses.imp fun _ _ => Clause.same_toFragment
  rw [toFragment, toFragment, isEmpty_eq_of_forall₂ hclauses, hconnective]
  split
  · exact Fragment.same_ofText _
  · have hjoin := Fragment.same_join (" " ++ u.connective.word ++ " ") hpieces
    exact Fragment.same_append (Fragment.same_append (Fragment.same_ofText _) hjoin) (Fragment.same_ofText _)

end Tree

namespace Condition
open Outcome

theorem sameAll_iff {cs ds : List Condition} :
    sameAll cs ds = true ↔ List.Forall₂ (fun c d => same c d = true) cs ds := by
  induction cs generalizing ds with
  | nil => cases ds <;> simp [sameAll]
  | cons c cs ih => cases ds <;> simp [sameAll, ih]

/-- The conditions give one fault or the same clauses. -/
def SameOutcome (c d : Condition) : Prop := ∀ parent position,
  Related (fun a b => Clause.same a b = true) (c.resolve parent position).outcome (d.resolve parent position).outcome

/-- Conditions with the same outcomes make lists with the same outcome, since the first fault is found at one place. -/
theorem related_resolveAll {cs ds : List Condition} (h : List.Forall₂ SameOutcome cs ds) (parent : Connective)
    (position : Nat) : Related (List.Forall₂ fun a b => Clause.same a b = true)
      (resolveAll parent position cs).outcome (resolveAll parent position ds).outcome := by
  induction h generalizing position with
  | nil => exact .nil
  | cons hc _ ih =>
    rw [outcome_resolveAll_cons, outcome_resolveAll_cons]
    exact (hc parent position).bind fun a b hab => (ih (position + 1)).map fun _ _ hrest => .cons hab hrest

theorem related_ofConditions {cs ds : List Condition} (h : List.Forall₂ SameOutcome cs ds) (s : Connective) :
    Related (fun t u => Tree.same t u = true) (Tree.ofConditions s cs).outcome (Tree.ofConditions s ds).outcome := by
  rw [Tree.outcome_ofConditions, Tree.outcome_ofConditions]
  exact (related_resolveAll h s 0).map fun _ _ hclauses => Tree.same_iff.mpr ⟨rfl, hclauses⟩

/-- By induction on the nesting: the same conditions are refused for one fault or become the same clauses. -/
theorem sameOutcome_of_same {c d : Condition} (h : c.same d = true) : SameOutcome c d := by
  induction c generalizing d with
  | field name test =>
    cases d with
    | field name' test' =>
      obtain ⟨rfl, htest⟩ : name = name' ∧ test.same test' = true := by simpa [same] using h
      intro parent position
      rw [outcome_field, outcome_field, Test.fault?_eq_of_same htest]
      split
      · rfl
      · cases test'.fault? name with
        | some fault => rfl
        | none => simpa [Related, Clause.same] using htest
    | _ => cases h
  | group connective children ih =>
    cases d with
    | group connective' children' =>
      obtain ⟨rfl, hsame⟩ : connective = connective' ∧ List.Forall₂ (fun c d => same c d = true) children children' := by
        simpa [same, sameAll_iff] using h
      -- The induction hypothesis is about members of `children`, so it is joined to the pairing first.
      have hchildren : List.Forall₂ SameOutcome children children' := by
        have hboth := (List.forall₂_and_left children children').mpr ⟨fun c hc d => ih c hc (d := d), hsame⟩
        exact hboth.imp fun c d hcd => hcd.1 d hcd.2
      intro parent position
      rw [outcome_group, outcome_group, isEmpty_eq_of_forall₂ hsame]
      split
      · rfl
      · exact (related_ofConditions hchildren _).map fun _ _ htree => Tree.same_toFragment htree
    | _ => cases h
  | raw piece =>
    cases d with
    | raw piece' => exact fun _ _ => h
    | _ => cases h
  | tree t =>
    cases d with
    | tree u => exact fun _ _ => Tree.same_toFragment h
    | _ => cases h

end Condition

open Condition in
/-- The same trees have one text and, one by one, the same values, of as many clauses under one connective. The same
    conditions are refused for one fault or give the same trees. -/
theorem Tree.same_congr :
    (∀ t u : Tree, t.same u = true →
      t.render.value = u.render.value ∧ List.Forall₂ (fun v w => Value.same v w = true) t.bindings.value u.bindings.value ∧
        t.size = u.size ∧ t.connective = u.connective) ∧
    ∀ s cs ds, sameAll cs ds = true →
      (∀ fault, (ofConditions s cs).outcome = .error fault → (ofConditions s ds).outcome = .error fault) ∧
      ∀ t, (ofConditions s cs).outcome = .ok t → ∃ u, (ofConditions s ds).outcome = .ok u ∧ t.same u = true := by
  constructor
  · intro t u h
    obtain ⟨hconnective, hclauses⟩ := same_iff.mp h
    obtain ⟨hsql, hparams⟩ := Fragment.same_iff.mp (same_toFragment h)
    exact ⟨hsql, hparams, hclauses.length_eq, hconnective⟩
  · intro s cs ds h
    have hrelated := related_ofConditions ((sameAll_iff.mp h).imp fun _ _ => sameOutcome_of_same) s
    exact ⟨fun _ => hrelated.of_error, fun _ => hrelated.of_ok⟩

open Condition in
theorem Tree.same_congr_zeros :
    ∃ cs ds t u, cs = [
        .field "a" (.oneOf .isIn [.float ⟨0⟩, .int 1, .float ⟨0x8000000000000000⟩]),
        .group none [.field "b" (.compare (some "!") (.float ⟨0x8000000000000000⟩)), .raw ⟨"x > ?", [.float ⟨0⟩]⟩]] ∧
      ds = [
        .field "a" (.oneOf .isIn [.float ⟨0x8000000000000000⟩, .int 1, .float ⟨0x8000000000000000⟩]),
        .group none [.field "b" (.compare (some "!") (.float ⟨0⟩)), .raw ⟨"x > ?", [.float ⟨0⟩]⟩]] ∧
      sameAll cs ds = true ∧ (ofConditions .or cs).outcome = .ok t ∧ (ofConditions .or ds).outcome = .ok u ∧ t ≠ u ∧
      t.same u = true ∧ t.render.value = u.render.value ∧
      List.Forall₂ (fun v w => Value.same v w = true) t.bindings.value u.bindings.value := by
  refine ⟨_, _, _, _, rfl, rfl, (fun h => ⟨h, rfl, rfl, by decide, ?_⟩) (by decide)⟩
  obtain ⟨u, hu, hsame⟩ := (same_congr.2 .or _ _ h).2 _ rfl
  cases hu
  obtain ⟨hsql, hparams, -⟩ := same_congr.1 _ _ hsame
  exact ⟨hsame, hsql, hparams⟩

end Criteria
