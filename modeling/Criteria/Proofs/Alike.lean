import Criteria.Proofs.Building
import Criteria.Proofs.Pieces

/-! Conditions that differ in their values only. What is written for a value shows whether it is null, and what is
    written for a set shows in addition which members repeat earlier ones; the values of a statement do not show at
    all. So two lists of conditions that agree in this much are refused for the same fault or give the same text. -/

namespace Criteria

/-- Lists of as many values, null in the same places, with the same repetitions. A value need not repeat itself, so
    only two places are compared. -/
structure Value.AlikeLists (vs ws : List Value) : Prop where
  length : vs.length = ws.length
  isNull : ∀ p ∈ vs.zip ws, p.1.isNull = p.2.isNull
  same : (vs.zip ws).Pairwise fun p q => p.1.same q.1 = p.2.same q.2

/-- Tests that differ in their values only. -/
inductive Test.Alike : Test → Test → Prop
  | compare {operator : Option String} {v w : Value} : v.isNull = w.isNull →
      Test.Alike (.compare operator v) (.compare operator w)
  | between {low low' high high' : Value} : low.isNull = low'.isNull → high.isNull = high'.isNull →
      Test.Alike (.between low high) (.between low' high')
  | oneOf {relation : SetRelation} {vs ws : List Value} : Value.AlikeLists vs ws →
      Test.Alike (.oneOf relation vs) (.oneOf relation ws)
  | inQuery {relation : SetRelation} {sql : String} {vs ws : List Value} :
      Test.Alike (.inQuery relation ⟨sql, vs⟩) (.inQuery relation ⟨sql, ws⟩)
  | like {pattern pattern' : Value} : pattern.isNull = pattern'.isNull → Test.Alike (.like pattern) (.like pattern')
  | equalsRaw {sql : String} {vs ws : List Value} : Test.Alike (.equalsRaw ⟨sql, vs⟩) (.equalsRaw ⟨sql, ws⟩)
  | equalsQuery {sql : String} {vs ws : List Value} : Test.Alike (.equalsQuery ⟨sql, vs⟩) (.equalsQuery ⟨sql, ws⟩)

mutual

/-- Conditions of one structure that differ in their values only. -/
inductive Condition.Alike : Condition → Condition → Prop
  | field {name : String} {test test' : Test} : test.Alike test' → Condition.Alike (.field name test) (.field name test')
  | group {connective : Option Connective} {cs ds : List Condition} : Condition.AlikeEach cs ds →
      Condition.Alike (.group connective cs) (.group connective ds)
  | raw {sql : String} {vs ws : List Value} : Condition.Alike (.raw ⟨sql, vs⟩) (.raw ⟨sql, ws⟩)
  | tree {t u : Tree} : Tree.Alike t u → Condition.Alike (.tree t) (.tree u)

/-- Lists of such conditions, one by one. -/
inductive Condition.AlikeEach : List Condition → List Condition → Prop
  | nil : Condition.AlikeEach [] []
  | cons {c d : Condition} {cs ds : List Condition} : c.Alike d → Condition.AlikeEach cs ds →
      Condition.AlikeEach (c :: cs) (d :: ds)

/-- Trees that were built from such conditions under one connective. -/
inductive Tree.Alike : Tree → Tree → Prop
  | built {s : Connective} {cs ds : List Condition} {t u : Tree} : Condition.AlikeEach cs ds →
      (Tree.ofConditions s cs).outcome = .ok t → (Tree.ofConditions s ds).outcome = .ok u → Tree.Alike t u

end

/-! ### Texts of values -/

theorem Operator.resolve_congr {v w : Value} (h : v.isNull = w.isNull) (token : Option String) :
    resolve v token = resolve w token := by
  rw [resolve, resolve, h]

namespace Dialect
variable (d : Dialect)

/-- What is written for a value shows whether it is null and nothing else. -/
theorem sql_valueFragment_congr {v w : Value} (h : v.isNull = w.isNull) :
    (d.valueFragment v).sql = (d.valueFragment w).sql := by
  rw [sql_valueFragment, sql_valueFragment, slot, slot, h]

end Dialect

namespace Value

/-- The same places are kept on both sides, as long as the kept values tell the later ones alike. -/
theorem isNull_freshAfter {kept pairs : List (Value × Value)}
    (hkept : ∀ p ∈ kept, ∀ q ∈ pairs, p.1.same q.1 = p.2.same q.2)
    (hsame : pairs.Pairwise fun p q => p.1.same q.1 = p.2.same q.2)
    (hnull : ∀ p ∈ pairs, p.1.isNull = p.2.isNull) :
    (freshAfter (kept.map (·.1)) (pairs.map (·.1))).map isNull =
      (freshAfter (kept.map (·.2)) (pairs.map (·.2))).map isNull := by
  induction pairs generalizing kept with
  | nil => rfl
  | cons q rest ih =>
    obtain ⟨hq, hrest⟩ := List.pairwise_cons.mp hsame
    have hany : (kept.map (·.1)).any (·.same q.1) = (kept.map (·.2)).any (·.same q.2) := by
      rw [List.any_map, List.any_map, Bool.eq_iff_iff, List.any_eq_true, List.any_eq_true]
      refine exists_congr fun p => and_congr_right fun hp => ?_
      rw [Function.comp_apply, Function.comp_apply, hkept p hp q List.mem_cons_self]
    have hnull' : ∀ p ∈ rest, p.1.isNull = p.2.isNull := fun p hp => hnull p (List.mem_cons_of_mem q hp)
    have hkept' : ∀ p ∈ kept, ∀ r ∈ rest, p.1.same r.1 = p.2.same r.2 :=
      fun p hp r hr => hkept p hp r (List.mem_cons_of_mem q hr)
    rw [List.map_cons, List.map_cons, freshAfter, freshAfter, hany]
    split
    · exact ih hkept' hrest hnull'
    · -- The value is kept on both sides, and it tells the later ones alike since the pairs do.
      have happend : ∀ p ∈ kept ++ [q], ∀ r ∈ rest, p.1.same r.1 = p.2.same r.2 := by
        intro p hp r hr
        rcases List.mem_append.mp hp with hp | hp
        · exact hkept' p hp r hr
        · obtain rfl := List.mem_singleton.mp hp
          exact hq r hr
      have := ih happend hrest hnull'
      rw [List.map_append, List.map_append] at this
      rw [List.map_cons, List.map_cons, hnull q List.mem_cons_self]
      exact congrArg (q.2.isNull :: ·) this

/-- What is left of alike lists without repetitions is null in the same places. -/
theorem AlikeLists.isNull_distinct {vs ws : List Value} (h : AlikeLists vs ws) :
    (distinct vs).map Value.isNull = (distinct ws).map Value.isNull := by
  have hpairs := @isNull_freshAfter [] _ (fun _ hp => by cases hp) h.same h.isNull
  rw [List.map_fst_zip (Nat.le_of_eq h.length), List.map_snd_zip (Nat.le_of_eq h.length.symm)] at hpairs
  exact hpairs

end Value

/-- What is written for a set tells no more than which of its distinct members are null. -/
theorem Dialect.sql_setFragment_congr (d : Dialect) {vs ws : List Value}
    (h : (Value.distinct vs).map Value.isNull = (Value.distinct ws).map Value.isNull) :
    (d.setFragment vs).sql = (d.setFragment ws).sql := by
  have htoken : ∀ v : Value, (d.slot v).token = if v.isNull then "NULL" else d.placeholder := by
    intro v
    rw [slot]
    split <;> rfl
  rw [setFragment_eq_join, setFragment_eq_join, Fragment.sql_join, Fragment.sql_join, List.map_map, List.map_map]
  have hmap : ∀ values : List Value, values.map ((·.sql) ∘ d.valueFragment) =
      (values.map Value.isNull).map fun null => if null then "NULL" else d.placeholder := by
    intro values
    rw [List.map_map]
    exact List.map_congr_left fun v _ => htoken v
  rw [hmap, hmap, h]

theorem Condition.AlikeEach.isEmpty_eq {cs ds : List Condition} (h : Condition.AlikeEach cs ds) :
    cs.isEmpty = ds.isEmpty := by
  cases h <;> rfl

/-- Alike tests have one text. -/
theorem Test.Alike.sql_fragment {test test' : Test} (h : test.Alike test') (name : String) :
    (test.fragment name).sql = (test'.fragment name).sql := by
  cases h with
  | compare h => simp [fragment, Operator.resolve_congr h, Dialect.sql_valueFragment_congr _ h]
  | between hlow hhigh =>
    simp [fragment, Dialect.sql_valueFragment_congr _ hlow, Dialect.sql_valueFragment_congr _ hhigh]
  | oneOf h => simp [fragment, Dialect.sql_setFragment_congr _ h.isNull_distinct]
  | like h => simp [fragment, Dialect.sql_valueFragment_congr _ h]
  | _ => rfl

/-- Alike sets are empty together, which is all that is checked of a test. -/
theorem Test.Alike.fault?_eq {test test' : Test} (h : test.Alike test') (name : String) :
    test.fault? name = test'.fault? name := by
  cases h with
  | @oneOf relation vs ws h =>
    have hlength := h.length
    cases vs <;> cases ws <;> first | rfl | cases hlength
  | _ => rfl

/-! ### Outcomes

Two outcomes are compared as far as they show: by the fault, or by the text. -/

/-- Lists whose clauses have the same texts give trees with the same text. -/
theorem Tree.sql_ofConditions_congr {s : Connective} {cs ds : List Condition}
    (h : (Condition.resolveAll s 0 cs).outcome.map (List.map (·.toFragment.sql)) =
      (Condition.resolveAll s 0 ds).outcome.map (List.map (·.toFragment.sql))) :
    (Tree.ofConditions s cs).outcome.map (·.toFragment.sql) = (Tree.ofConditions s ds).outcome.map (·.toFragment.sql) := by
  rw [outcome_ofConditions, outcome_ofConditions, Outcome.map_map, Outcome.map_map]
  refine Outcome.map_congr h fun clauses clauses' hclauses => ?_
  rw [Function.comp_apply, Function.comp_apply, sql_toFragment, sql_toFragment, hclauses]

mutual

/-- Alike conditions are refused for one fault, or their clauses have one text. -/
theorem Condition.Alike.sql_outcome {c d : Condition} : c.Alike d → ∀ parent position,
    (c.resolve parent position).outcome.map (·.toFragment.sql) =
      (d.resolve parent position).outcome.map (·.toFragment.sql)
  | @Condition.Alike.field name test test' h, parent, position => by
    rw [Condition.outcome_field, Condition.outcome_field, h.fault?_eq name]
    split
    · rfl
    · cases test'.fault? name with
      | some fault => rfl
      | none => exact congrArg Except.ok (h.sql_fragment name)
  | @Condition.Alike.group connective cs ds h, parent, position => by
    rw [Condition.outcome_group, Condition.outcome_group, h.isEmpty_eq]
    split
    · rfl
    · have htree := Tree.sql_ofConditions_congr (h.sql_outcome (connective.getD parent.flip) 0)
      rw [Outcome.map_map, Outcome.map_map]
      exact htree
  | .raw, _, _ => rfl
  | .tree h, parent, position => by
    rw [Condition.outcome_tree, Condition.outcome_tree]
    exact congrArg Except.ok h.sql_toFragment

theorem Condition.AlikeEach.sql_outcome {cs ds : List Condition} : Condition.AlikeEach cs ds → ∀ parent position,
    (Condition.resolveAll parent position cs).outcome.map (List.map (·.toFragment.sql)) =
      (Condition.resolveAll parent position ds).outcome.map (List.map (·.toFragment.sql))
  | .nil, _, _ => rfl
  | @Condition.AlikeEach.cons c d cs ds h hrest, parent, position => by
    have hcs := hrest.sql_outcome parent (position + 1)
    rw [Condition.outcome_resolveAll_cons, Condition.outcome_resolveAll_cons]
    refine Outcome.bind_map_congr (h.sql_outcome parent position) fun a b hab => ?_
    rw [Outcome.map_map, Outcome.map_map]
    refine Outcome.map_congr hcs fun as bs hrest => ?_
    rw [Function.comp_apply, Function.comp_apply, List.map_cons, List.map_cons, hab, hrest]

theorem Tree.Alike.sql_toFragment {t u : Tree} : t.Alike u → t.toFragment.sql = u.toFragment.sql
  | @Tree.Alike.built s _ _ _ _ h ht hu => by
    have htree := Tree.sql_ofConditions_congr (h.sql_outcome s 0)
    rw [ht, hu] at htree
    exact Except.ok.inj htree

end

/-- Values show in the text of a tree only by being null and by repeating each other in a set: conditions that differ
    in nothing else are refused for the same reason or give the same text. -/
theorem Tree.render_eq_of_alike {s : Connective} {cs ds : List Condition} (h : Condition.AlikeEach cs ds) :
    (∀ t, (Tree.ofConditions s cs).outcome = .ok t →
      ∃ u, (Tree.ofConditions s ds).outcome = .ok u ∧ u.render.value = t.render.value) ∧
    ∀ fault, (Tree.ofConditions s cs).outcome = .error fault → (Tree.ofConditions s ds).outcome = .error fault := by
  have hsql := Tree.sql_ofConditions_congr (h.sql_outcome s 0)
  constructor
  · intro t ht
    rw [ht] at hsql
    obtain ⟨u, hu, hut⟩ := Outcome.map_eq_ok.mp hsql.symm
    exact ⟨u, hu, hut⟩
  · intro fault hfault
    rw [hfault] at hsql
    cases hds : (Tree.ofConditions s ds).outcome with
    | error fault' =>
      rw [hds] at hsql
      exact congrArg Except.error (Except.error.inj hsql.symm)
    | ok u =>
      rw [hds] at hsql
      cases hsql

theorem Tree.render_eq_of_alike_nan :
    ∃ cs ds t u, cs = [
        Condition.field "a" (.oneOf .isIn [.float ⟨0x7FF8000000000000⟩, .float ⟨0x7FF8000000000000⟩, .null, .int 1, .int 1]),
        .group none [.field "b" (.compare (some "!") (.text "'")), .raw ⟨"x > ?", [.int 1]⟩],
        .tree ⟨.and, [.field "c" (.like (.text "%")), .fragment ⟨"(d IN (SELECT ?))", [.int 2]⟩]⟩] ∧
      ds = [
        Condition.field "a" (.oneOf .isIn [.int 7, .int 8, .null, .text "q", .text "q"]),
        .group none [.field "b" (.compare (some "!") (.int 0)), .raw ⟨"x > ?", []⟩],
        .tree ⟨.and, [.field "c" (.like (.bool true)), .fragment ⟨"(d IN (SELECT ?))", [.null, .null]⟩]⟩] ∧
      Condition.AlikeEach cs ds ∧
      (Tree.ofConditions .or cs).outcome = .ok t ∧ (Tree.ofConditions .or ds).outcome = .ok u ∧
      u.render.value = t.render.value := by
  have hset : Value.AlikeLists
      [.float ⟨0x7FF8000000000000⟩, .float ⟨0x7FF8000000000000⟩, .null, .int 1, .int 1]
      [.int 7, .int 8, .null, .text "q", .text "q"] := ⟨rfl, by decide, by decide⟩
  have hinner : Condition.AlikeEach
      [.field "c" (.like (.text "%")), .group (some .or) [.field "d" (.inQuery .isIn ⟨"SELECT ?", [.int 2]⟩)]]
      [.field "c" (.like (.bool true)), .group (some .or) [.field "d" (.inQuery .isIn ⟨"SELECT ?", [.null, .null]⟩)]] :=
    .cons (.field (.like rfl)) (.cons (.group (.cons (.field .inQuery) .nil)) .nil)
  have hgroup : Condition.AlikeEach
      [.field "b" (.compare (some "!") (.text "'")), .raw ⟨"x > ?", [.int 1]⟩]
      [.field "b" (.compare (some "!") (.int 0)), .raw ⟨"x > ?", []⟩] :=
    .cons (.field (.compare rfl)) (.cons .raw .nil)
  have htree : Tree.Alike
      ⟨.and, [.field "c" (.like (.text "%")), .fragment ⟨"(d IN (SELECT ?))", [.int 2]⟩]⟩
      ⟨.and, [.field "c" (.like (.bool true)), .fragment ⟨"(d IN (SELECT ?))", [.null, .null]⟩]⟩ :=
    .built hinner rfl rfl
  have h : Condition.AlikeEach _ _ :=
    .cons (@Condition.Alike.field "a" _ _ (@Test.Alike.oneOf .isIn _ _ hset))
      (.cons (@Condition.Alike.group none _ _ hgroup) (.cons (.tree htree) .nil))
  obtain ⟨u, hu, hsql⟩ := (render_eq_of_alike h).1 _ rfl
  exact ⟨_, _, _, u, rfl, rfl, h, rfl, hu, hsql⟩

end Criteria
