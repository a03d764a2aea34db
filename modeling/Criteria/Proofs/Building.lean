import Criteria.Proofs.Outcome
import Criteria.Tree.Build
import Mathlib.Data.List.Forall2

/-! The outcome of building a clause tree. Events are set aside here. A condition gives a clause or a fault; the
    position of a condition shows in its fault only, and the clauses of a list are those of its conditions, one
    for each, in order. -/

namespace Criteria

namespace Condition

/-! ### Induction

Conditions nest through lists, so the induction over a group speaks of the members of its list. -/

@[elab_as_elim, induction_eliminator]
theorem nesting {motive : Condition → Prop} (field : ∀ name test, motive (.field name test))
    (group : ∀ connective children, (∀ c ∈ children, motive c) → motive (.group connective children))
    (raw : ∀ piece, motive (.raw piece)) (tree : ∀ t, motive (.tree t)) : ∀ c, motive c
  | .field name test => field name test
  | .group connective children => group connective children fun c _ => nesting field group raw tree c
  | .raw piece => raw piece
  | .tree t => tree t

variable {parent : Connective} {position : Nat} {clause : Clause}

theorem outcome_field (name : String) (test : Test) :
    (resolve parent position (.field name test)).outcome =
      if Text.isBlankText name then .error .emptyField
      else match test.fault? name with
        | some fault => .error fault
        | none => .ok (.field name test) := by
  simp only [resolve, checkedField]
  split
  · rfl
  · cases test.fault? name <;> rfl

theorem outcome_raw (piece : Fragment) : (resolve parent position (.raw piece)).outcome = .ok (.fragment piece) := by
  simp [resolve]

theorem outcome_tree (t : Tree) :
    (resolve parent position (.tree t)).outcome = .ok (.fragment t.toFragment) := by
  simp only [resolve, Attempt.outcome_bind, Attempt.outcome_lift]
  rfl

end Condition

theorem Tree.outcome_ofConditions (s : Connective) (cs : List Condition) :
    (Tree.ofConditions s cs).outcome = (Condition.resolveAll s 0 cs).outcome.map (Tree.mk s) := by
  simp only [Tree.ofConditions, Attempt.outcome_bind, Attempt.outcome_lift]
  cases (Condition.resolveAll s 0 cs).outcome <;> rfl

namespace Condition

variable {parent : Connective} {position : Nat} {clause : Clause}

/-- A group is built as a tree of its own, whose text becomes the clause. -/
theorem resolve_group (connective : Option Connective) (children : List Condition) :
    resolve parent position (.group connective children) =
      if children.isEmpty then .refuse (.emptyGroup (Decimal.text position))
      else Tree.ofConditions (connective.getD parent.flip) children >>= fun nested =>
        ExceptT.lift nested.compile >>= fun piece => pure (.fragment piece) := by
  simp only [resolve, Tree.ofConditions, bind_assoc]

theorem outcome_group (connective : Option Connective) (children : List Condition) :
    (resolve parent position (.group connective children)).outcome =
      if children.isEmpty then .error (.emptyGroup (Decimal.text position))
      else (Tree.ofConditions (connective.getD parent.flip) children).outcome.map fun nested =>
        .fragment nested.toFragment := by
  simp only [resolve]
  split
  · rfl
  · simp only [Tree.outcome_ofConditions, Attempt.outcome_bind, Attempt.outcome_lift]
    cases (resolveAll (connective.getD parent.flip) 0 children).outcome <;> rfl

/-- The condition gives the clause in a list joined by `parent`. -/
def Gives (parent : Connective) (c : Condition) (clause : Clause) : Prop :=
  (c.resolve parent 0).outcome = .ok clause

theorem outcome_eq_ok_iff {c : Condition} :
    (c.resolve parent position).outcome = .ok clause ↔ Gives parent c clause := by
  unfold Gives
  cases c with
  | field name test => rw [outcome_field, outcome_field]
  | group connective children =>
    rw [outcome_group, outcome_group]
    -- The position shows in the fault only, and neither side is one.
    cases children.isEmpty <;> simp
  | raw piece => rw [outcome_raw, outcome_raw]
  | tree t => rw [outcome_tree, outcome_tree]

theorem gives_field {name : String} {test : Test} :
    Gives parent (.field name test) clause ↔
      Text.isBlankText name = false ∧ test.fault? name = none ∧ clause = .field name test := by
  rw [Gives, outcome_field]
  by_cases hb : Text.isBlankText name = true
  · simp [hb]
  · cases hf : test.fault? name <;> simp [hb, eq_comm]

theorem gives_group {connective : Option Connective} {children : List Condition} :
    Gives parent (.group connective children) clause ↔
      children ≠ [] ∧ ∃ nested, (Tree.ofConditions (connective.getD parent.flip) children).outcome = .ok nested ∧
        clause = .fragment nested.toFragment := by
  rw [Gives, outcome_group]
  cases children with
  | nil => simp
  | cons c cs =>
    simp only [List.isEmpty_cons, Bool.false_eq_true, ↓reduceIte, Outcome.map_eq_ok, ne_eq, reduceCtorEq,
      not_false_eq_true, true_and]
    simp only [eq_comm]

theorem gives_raw {piece : Fragment} : Gives parent (.raw piece) clause ↔ clause = .fragment piece := by
  rw [Gives, outcome_raw]
  simp [eq_comm]

theorem gives_tree {t : Tree} : Gives parent (.tree t) clause ↔ clause = .fragment t.toFragment := by
  rw [Gives, outcome_tree]
  simp [eq_comm]

theorem outcome_resolveAll_nil : (resolveAll parent position []).outcome = .ok [] := rfl

theorem outcome_resolveAll_cons (c : Condition) (cs : List Condition) :
    (resolveAll parent position (c :: cs)).outcome = (c.resolve parent position).outcome >>= fun clause =>
      (resolveAll parent (position + 1) cs).outcome.map (clause :: ·) := by
  simp only [resolveAll, Attempt.outcome_bind]
  cases (c.resolve parent position).outcome with
  | error fault => rfl
  | ok clause => cases (resolveAll parent (position + 1) cs).outcome <;> rfl

theorem resolveAll_eq_ok_iff {cs : List Condition} {clauses : List Clause} :
    (resolveAll parent position cs).outcome = .ok clauses ↔ List.Forall₂ (Gives parent) cs clauses := by
  induction cs generalizing position clauses with
  | nil => simp [outcome_resolveAll_nil, eq_comm]
  | cons c cs ih =>
    rw [outcome_resolveAll_cons, Outcome.bind_eq_ok, List.forall₂_cons_left_iff]
    simp only [Outcome.map_eq_ok, ih, outcome_eq_ok_iff]
    constructor
    · rintro ⟨clause, hc, rest, hrest, rfl⟩
      exact ⟨clause, rest, hc, hrest, rfl⟩
    · rintro ⟨clause, rest, hc, hrest, rfl⟩
      exact ⟨clause, hc, rest, hrest, rfl⟩

/-- Each clause of a list comes from one of its conditions. -/
theorem exists_gives {cs : List Condition} {clauses : List Clause} (h : List.Forall₂ (Gives parent) cs clauses)
    (hclause : clause ∈ clauses) : ∃ c ∈ cs, Gives parent c clause := by
  induction h with
  | nil => cases hclause
  | cons hg _ ih =>
    rcases List.mem_cons.mp hclause with rfl | hrest
    · exact ⟨_, List.mem_cons_self, hg⟩
    · obtain ⟨c, hc, hgives⟩ := ih hrest
      exact ⟨c, List.mem_cons_of_mem _ hc, hgives⟩

end Condition

/-- A list that can be built gives a tree of its own connective, with one clause for each condition. -/
theorem Tree.ofConditions_eq_ok_iff {s : Connective} {cs : List Condition} {t : Tree} :
    (Tree.ofConditions s cs).outcome = .ok t ↔
      t.connective = s ∧ List.Forall₂ (Condition.Gives s) cs t.clauses := by
  rw [Tree.outcome_ofConditions, Outcome.map_eq_ok]
  constructor
  · rintro ⟨clauses, h, rfl⟩
    exact ⟨rfl, Condition.resolveAll_eq_ok_iff.mp h⟩
  · rintro ⟨rfl, h⟩
    exact ⟨t.clauses, Condition.resolveAll_eq_ok_iff.mpr h, rfl⟩

end Criteria
