import Criteria.Proofs.Building

/-! Interchangeable forms of nesting. A nested group is written out where it stands, so a group, the tree built from its
    members, and the text and the values of that tree come to the same. They can stand for each other at any depth of
    any list, if they are built under the connective that the group has in its place. -/

namespace Criteria
namespace Condition

/-- A list of conditions in which one place is open, in the list itself or in one of its groups. -/
inductive Surroundings where
  | list (before after : List Condition)
  | group (before : List Condition) (connective : Option Connective) (inner : Surroundings) (after : List Condition)

namespace Surroundings

/-- The list with a condition in the open place. -/
def fill (c : Condition) : Surroundings → List Condition
  | .list before after => before ++ c :: after
  | .group before connective inner after => before ++ .group connective (inner.fill c) :: after

/-- The connective of the list that the open place is in, where `s` joins the outermost list. -/
def connectiveAt (s : Connective) : Surroundings → Connective
  | .list _ _ => s
  | .group _ connective inner _ => inner.connectiveAt (connective.getD s.flip)

theorem isEmpty_fill (K : Surroundings) (c : Condition) : (K.fill c).isEmpty = false := by
  cases K <;> simp [fill]

end Surroundings

/-- The conditions are refused for one fault or give clauses that agree in `k`, wherever they stand in a list joined by
    `parent`. -/
def AgreeIn {β : Type} (k : Clause → β) (parent : Connective) (c d : Condition) : Prop :=
  ∀ position, (c.resolve parent position).outcome.map k = (d.resolve parent position).outcome.map k

/-- The conditions have one outcome, wherever they stand in a list joined by `parent`. -/
def Interchangeable (parent : Connective) (c d : Condition) : Prop :=
  ∀ position, (c.resolve parent position).outcome = (d.resolve parent position).outcome

end Condition

section
variable {β : Type} {k : Clause → β} {g : β → Fragment}

/-- The text and the values of a tree are those of its clauses. -/
theorem Tree.toFragment_congr {t u : Tree} (hs : t.connective = u.connective)
    (h : t.clauses.map Clause.toFragment = u.clauses.map Clause.toFragment) : t.toFragment = u.toFragment := by
  have hempty : t.clauses.isEmpty = u.clauses.isEmpty := by
    rw [← List.isEmpty_map (f := Clause.toFragment), h, List.isEmpty_map]
  rw [toFragment, toFragment, hempty, h, hs]

/-- What is written for each clause tells what is written for the tree. -/
theorem Tree.toFragment_ofConditions_congr (hk : ∀ clause, g (k clause) = clause.toFragment) {s : Connective}
    {cs ds : List Condition} (h : (Condition.resolveAll s 0 cs).outcome.map (List.map k) =
      (Condition.resolveAll s 0 ds).outcome.map (List.map k)) :
    (ofConditions s cs).outcome.map toFragment = (ofConditions s ds).outcome.map toFragment := by
  have hcomp : Clause.toFragment = g ∘ k := (funext hk).symm
  rw [outcome_ofConditions, outcome_ofConditions, Outcome.map_map, Outcome.map_map]
  refine Outcome.map_congr h fun as bs hclauses => toFragment_congr rfl ?_
  rw [hcomp, ← List.map_map, ← List.map_map, hclauses]

namespace Condition

variable {parent s : Connective} {c d : Condition}

theorem AgreeIn.outcome_resolveAll (h : AgreeIn k parent c d) (before after : List Condition) (position : Nat) :
    (resolveAll parent position (before ++ c :: after)).outcome.map (List.map k) =
      (resolveAll parent position (before ++ d :: after)).outcome.map (List.map k) := by
  induction before generalizing position with
  | nil =>
    rw [List.nil_append, List.nil_append, outcome_resolveAll_cons, outcome_resolveAll_cons]
    refine Outcome.bind_map_congr (h position) fun a b hab => ?_
    rw [Outcome.map_map, Outcome.map_map]
    cases (resolveAll parent (position + 1) after).outcome with
    | error fault => rfl
    | ok rest => exact congrArg (fun first => Except.ok (first :: rest.map k)) hab
  | cons b before ih =>
    rw [List.cons_append, List.cons_append, outcome_resolveAll_cons, outcome_resolveAll_cons]
    -- The members in front are the same, so a fault there is the same fault.
    cases (b.resolve parent position).outcome with
    | error fault => rfl
    | ok clause =>
      refine (Outcome.map_map _ _ _).trans (.trans ?_ (Outcome.map_map _ _ _).symm)
      refine Outcome.map_congr (ih (position + 1)) fun as bs hrest => ?_
      rw [Function.comp_apply, Function.comp_apply, List.map_cons, List.map_cons, hrest]

/-- A group passes on the outcome of its members, so conditions that agree inside agree in the list around it, as long as
    they agree in what is written for a clause. -/
theorem AgreeIn.outcome_fill (hk : ∀ clause, g (k clause) = clause.toFragment) {K : Surroundings}
    (h : AgreeIn k (K.connectiveAt s) c d) :
    (resolveAll s 0 (K.fill c)).outcome.map (List.map k) = (resolveAll s 0 (K.fill d)).outcome.map (List.map k) := by
  induction K generalizing s with
  | list before after => exact h.outcome_resolveAll before after 0
  | group before connective inner after ih =>
    -- The two groups agree by what the hypothesis gives for their members, so they can stand for each other outside.
    have hgroup : AgreeIn k s (.group connective (inner.fill c)) (.group connective (inner.fill d)) := by
      intro position
      have htree := Tree.toFragment_ofConditions_congr hk (ih h)
      rw [outcome_group, outcome_group, inner.isEmpty_fill, inner.isEmpty_fill, if_neg Bool.false_ne_true,
        if_neg Bool.false_ne_true, Outcome.map_map, Outcome.map_map]
      exact Outcome.map_congr htree fun t u htu => congrArg (fun piece => k (.fragment piece)) htu
    exact hgroup.outcome_resolveAll before after 0

theorem Interchangeable.of_gives {clause : Clause} (hc : c.Gives parent clause) (hd : d.Gives parent clause) :
    Interchangeable parent c d := fun _ =>
  (outcome_eq_ok_iff.mpr hc).trans (outcome_eq_ok_iff.mpr hd).symm

/-- What is interchangeable inside stays so in the list around it. -/
theorem Interchangeable.outcome_fill {K : Surroundings} (h : Interchangeable (K.connectiveAt s) c d) :
    (resolveAll s 0 (K.fill c)).outcome = (resolveAll s 0 (K.fill d)).outcome := by
  have hagree : AgreeIn id (K.connectiveAt s) c d := fun position => congrArg (Except.map id) (h position)
  have hfill := hagree.outcome_fill (g := Clause.toFragment) fun _ => rfl
  simpa [Except.map_id] using hfill

end Condition
end

open Condition in
/-- Where a group of conditions can be built, the group with its connective spelled out, the tree built from the
    conditions, and the text of that tree with its values give the outcome that the group gives: the same fault, or the
    same clauses. -/
theorem Tree.outcome_fill_nested (K : Surroundings) {root s : Connective} {connective : Option Connective}
    {children : List Condition} {t : Tree} (hs : s = connective.getD (K.connectiveAt root).flip) (hne : children ≠ [])
    (ht : (Tree.ofConditions s children).outcome = .ok t) :
    (Tree.ofConditions root (K.fill (.group (some s) children))).outcome =
      (Tree.ofConditions root (K.fill (.group connective children))).outcome ∧
    (Tree.ofConditions root (K.fill (.tree t))).outcome =
      (Tree.ofConditions root (K.fill (.group connective children))).outcome ∧
    (Tree.ofConditions root (K.fill (.raw ⟨t.render.value, t.bindings.value⟩))).outcome =
      (Tree.ofConditions root (K.fill (.group connective children))).outcome := by
  have hgroup : Gives (K.connectiveAt root) (.group connective children) (.fragment t.toFragment) :=
    gives_group.mpr ⟨hne, t, hs ▸ ht, rfl⟩
  have hfill : ∀ form, Gives (K.connectiveAt root) form (.fragment t.toFragment) →
      (Tree.ofConditions root (K.fill form)).outcome =
        (Tree.ofConditions root (K.fill (.group connective children))).outcome := by
    intro form hform
    rw [outcome_ofConditions, outcome_ofConditions, (Interchangeable.of_gives hform hgroup).outcome_fill]
  exact ⟨hfill _ (gives_group.mpr ⟨hne, t, ht, rfl⟩), hfill _ (gives_tree.mpr rfl), hfill _ (gives_raw.mpr rfl)⟩

open Condition in
theorem Tree.outcome_fill_nested_flipped :
    ∃ K children t, K = Surroundings.group [.field "a" (.compare none .null)] none
        (.list [.raw ⟨"b > ?", [.int 1]⟩] [.field "c" (.like (.text "%"))]) [.raw ⟨"d", []⟩] ∧
      children = [Condition.field "e" (.compare (some "!") (.int 2)), .field "f" (.oneOf .isIn [.int 3, .int 3])] ∧
      children ≠ [] ∧ K.connectiveAt .and = .or ∧ (Tree.ofConditions .and children).outcome = .ok t ∧
      ((Tree.ofConditions .and (K.fill (.group (some .and) children))).outcome =
          (Tree.ofConditions .and (K.fill (.group none children))).outcome ∧
        (Tree.ofConditions .and (K.fill (.tree t))).outcome =
          (Tree.ofConditions .and (K.fill (.group none children))).outcome ∧
        (Tree.ofConditions .and (K.fill (.raw ⟨t.render.value, t.bindings.value⟩))).outcome =
          (Tree.ofConditions .and (K.fill (.group none children))).outcome) ∧
      (Tree.ofConditions .and (K.fill (.group none children))).outcome = .ok ⟨.and, [
        .field "a" (.compare none .null),
        .fragment ⟨"(b > ? OR (e <> ? AND f IN (?)) OR c LIKE ?)", [.int 1, .int 2, .int 3, .text "%"]⟩,
        .fragment ⟨"d", []⟩]⟩ :=
  ⟨_, _, _, rfl, rfl, List.cons_ne_nil _ _, rfl, rfl, outcome_fill_nested _ rfl (List.cons_ne_nil _ _) rfl, by decide +kernel⟩

end Criteria
