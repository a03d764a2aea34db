import Criteria.Proofs.Building
import Criteria.Proofs.Pieces

/-! Other values in the same places. A replacement of values that leaves null null and tells the same values alike
    commutes with checking, building and rendering: the text stays as it is, and the bound values are replaced one
    by one. -/

namespace Criteria

/-- A replacement of values that a database could not tell from none by null tests and comparisons. -/
structure Value.Faithful (f : Value → Value) : Prop where
  isNull : ∀ v, (f v).isNull = v.isNull
  same : ∀ v w, (f v).same (f w) = v.same w

/-- The piece with its values replaced and its text as it is. -/
def Fragment.mapValues (f : Value → Value) (piece : Fragment) : Fragment := ⟨piece.sql, piece.params.map f⟩

/-- The test with its values replaced, also those of its statement. -/
def Test.mapValues (f : Value → Value) : Test → Test
  | .compare operator v => .compare operator (f v)
  | .between low high => .between (f low) (f high)
  | .oneOf relation values => .oneOf relation (values.map f)
  | .inQuery relation query => .inQuery relation (query.mapValues f)
  | .like pattern => .like (f pattern)
  | .equalsRaw expression => .equalsRaw (expression.mapValues f)
  | .equalsQuery query => .equalsQuery (query.mapValues f)

/-- The clause with its values replaced. -/
def Clause.mapValues (f : Value → Value) : Clause → Clause
  | .field name test => .field name (test.mapValues f)
  | .fragment piece => .fragment (piece.mapValues f)

/-- The tree with its values replaced. -/
def Tree.mapValues (f : Value → Value) (t : Tree) : Tree := ⟨t.connective, t.clauses.map (Clause.mapValues f)⟩

namespace Condition

mutual

/-- The condition with its values replaced, at every depth. -/
def mapValues (f : Value → Value) : Condition → Condition
  | .field name test => .field name (test.mapValues f)
  | .group connective children => .group connective (mapValuesEach f children)
  | .raw piece => .raw (piece.mapValues f)
  | .tree t => .tree (t.mapValues f)

/-- The conditions with their values replaced. -/
def mapValuesEach (f : Value → Value) : List Condition → List Condition
  | [] => []
  | c :: cs => c.mapValues f :: mapValuesEach f cs

end

theorem mapValuesEach_eq_map (f : Value → Value) (cs : List Condition) :
    mapValuesEach f cs = cs.map (mapValues f) := by
  induction cs with
  | nil => rfl
  | cons c cs ih => rw [mapValuesEach, ih, List.map_cons]

end Condition

namespace Fragment
variable (f : Value → Value)

@[simp] theorem mapValues_ofText (sql : String) : (ofText sql).mapValues f = ofText sql := rfl

@[simp] theorem mapValues_append (a b : Fragment) : (a ++ b).mapValues f = a.mapValues f ++ b.mapValues f := by
  ext1
  · rfl
  · exact List.map_append

theorem mapValues_join (separator : String) (pieces : List Fragment) :
    (join separator pieces).mapValues f = join separator (pieces.map (mapValues f)) := by
  induction pieces with
  | nil => rfl
  | cons a rest ih =>
    cases rest with
    | nil => rfl
    | cons b rest =>
      rw [join_cons_cons, mapValues_append, mapValues_append, mapValues_ofText, ih]
      rfl

end Fragment

/-! ### Rendering -/

section Rendering
variable {f : Value → Value} (hf : Value.Faithful f)
include hf

namespace Value.Faithful

/-- Where values are told alike, the same places of a list are kept. -/
theorem freshAfter_map (kept values : List Value) :
    freshAfter (kept.map f) (values.map f) = (freshAfter kept values).map f := by
  induction values generalizing kept with
  | nil => rfl
  | cons v rest ih =>
    have hany : (kept.map f).any (·.same (f v)) = kept.any (·.same v) := by
      rw [List.any_map]
      exact congrArg kept.any (funext fun k => hf.same k v)
    rw [List.map_cons, freshAfter, freshAfter, hany]
    split
    · exact ih kept
    · rw [List.map_cons, ← ih, List.map_append]
      rfl

theorem distinct_map (values : List Value) : distinct (values.map f) = (distinct values).map f :=
  hf.freshAfter_map [] values

theorem resolve_eq (v : Value) (token : Option String) : Operator.resolve (f v) token = Operator.resolve v token := by
  rw [Operator.resolve, Operator.resolve, hf.isNull]

/-- A value is written as before: null stays null, and any other value keeps its placeholder. -/
theorem valueFragment_eq (d : Dialect) (v : Value) : d.valueFragment (f v) = (d.valueFragment v).mapValues f := by
  ext1
  · rw [Dialect.sql_valueFragment, Dialect.slot, hf.isNull]
    rfl
  · rw [Dialect.params_valueFragment, hf.isNull, Fragment.mapValues, Dialect.params_valueFragment]
    split <;> rfl

theorem setFragment_eq (d : Dialect) (values : List Value) :
    d.setFragment (values.map f) = (d.setFragment values).mapValues f := by
  rw [Dialect.setFragment_eq_join, Dialect.setFragment_eq_join, Fragment.mapValues_join, hf.distinct_map,
    List.map_map, List.map_map]
  congr 1
  exact List.map_congr_left fun v _ => hf.valueFragment_eq d v

end Value.Faithful

theorem Test.fragment_mapValues (name : String) (test : Test) :
    (test.mapValues f).fragment name = (test.fragment name).mapValues f := by
  cases test <;> simp [Test.mapValues, Test.fragment, hf.resolve_eq, hf.valueFragment_eq, hf.setFragment_eq]

theorem Clause.toFragment_mapValues (clause : Clause) :
    (clause.mapValues f).toFragment = clause.toFragment.mapValues f := by
  cases clause with
  | field name test => exact Test.fragment_mapValues hf name test
  | fragment piece => rfl

/-- Rendering a tree commutes with the replacement. -/
theorem Tree.toFragment_mapValues (t : Tree) : (t.mapValues f).toFragment = t.toFragment.mapValues f := by
  rw [Tree.toFragment, Tree.toFragment, Tree.mapValues]
  simp only [List.isEmpty_map, List.map_map]
  split
  · rfl
  · rw [Fragment.mapValues_append, Fragment.mapValues_append, Fragment.mapValues_join, List.map_map]
    have hclauses : t.clauses.map (Clause.toFragment ∘ Clause.mapValues f) =
        t.clauses.map (Fragment.mapValues f ∘ Clause.toFragment) :=
      List.map_congr_left fun clause _ => Clause.toFragment_mapValues hf clause
    rw [hclauses]
    rfl

end Rendering

theorem Test.fault?_mapValues (f : Value → Value) (name : String) (test : Test) :
    (test.mapValues f).fault? name = test.fault? name := by
  cases test with
  | oneOf relation values => cases values <;> rfl
  | _ => rfl

namespace Condition
variable {f : Value → Value}

/-- The outcome of a list, if that of each of its conditions is the one before with its values replaced. -/
theorem outcome_resolveAll_mapValues {cs : List Condition}
    (h : ∀ c ∈ cs, ∀ parent position, ((c.mapValues f).resolve parent position).outcome =
      (c.resolve parent position).outcome.map (Clause.mapValues f)) (parent : Connective) (position : Nat) :
    (resolveAll parent position (cs.map (mapValues f))).outcome =
      (resolveAll parent position cs).outcome.map (List.map (Clause.mapValues f)) := by
  induction cs generalizing position with
  | nil => rfl
  | cons c cs ih =>
    have hrest := ih (fun c hc => h c (List.mem_cons_of_mem _ hc)) (position + 1)
    rw [List.map_cons, outcome_resolveAll_cons, outcome_resolveAll_cons, h c List.mem_cons_self, hrest]
    cases (c.resolve parent position).outcome with
    | error fault => rfl
    | ok clause => cases (resolveAll parent (position + 1) cs).outcome <;> rfl

/-- Checking a condition commutes with the replacement. No check looks at a value. -/
theorem outcome_resolve_mapValues (hf : Value.Faithful f) (c : Condition) (parent : Connective) (position : Nat) :
    ((c.mapValues f).resolve parent position).outcome =
      (c.resolve parent position).outcome.map (Clause.mapValues f) := by
  induction c generalizing parent position with
  | field name test =>
    rw [mapValues, outcome_field, outcome_field, Test.fault?_mapValues]
    split
    · rfl
    · cases test.fault? name <;> rfl
  | group connective children ih =>
    rw [mapValues, mapValuesEach_eq_map, outcome_group, outcome_group, List.isEmpty_map, Tree.outcome_ofConditions,
      Tree.outcome_ofConditions, outcome_resolveAll_mapValues ih]
    split
    · rfl
    · cases (resolveAll (connective.getD parent.flip) 0 children).outcome with
      | error fault => rfl
      | ok clauses =>
        -- A group is rendered before it is nested, so what is replaced is the values of its text.
        exact congrArg (fun piece => Except.ok (Clause.fragment piece))
          (Tree.toFragment_mapValues hf ⟨connective.getD parent.flip, clauses⟩)
  | raw piece => rw [mapValues, outcome_raw, outcome_raw]; rfl
  | tree t =>
    rw [mapValues, outcome_tree, outcome_tree, Tree.toFragment_mapValues hf]
    rfl

end Condition

theorem Tree.outcome_ofConditions_mapValues {f : Value → Value} (hf : Value.Faithful f) (s : Connective)
    (cs : List Condition) :
    (Tree.ofConditions s (cs.map (Condition.mapValues f))).outcome =
      (Tree.ofConditions s cs).outcome.map (Tree.mapValues f) := by
  rw [outcome_ofConditions, outcome_ofConditions,
    Condition.outcome_resolveAll_mapValues fun c _ => Condition.outcome_resolve_mapValues hf c]
  cases (Condition.resolveAll s 0 cs).outcome <;> rfl

end Criteria
