import Criteria.Proofs.Building
import Criteria.Proofs.DocumentOrder
import Criteria.Proofs.FirstOccurrence
import Criteria.Proofs.Pieces

/-! The order of bound values. The nodes of a document that are bound are told here by the document alone: its fields in
    document order, and of each field the nodes that its modifier takes. A document that is accepted binds the values of
    exactly these nodes in this order, nulls left out. -/

namespace Criteria
namespace Document

/-- Whether two nodes stand for the same value. -/
def sameValue (a b : Document) : Bool :=
  match a.toValue?, b.toValue? with
  | some v, some w => v.same w
  | _, _ => false

/-- The nodes of a list that stand for the same value as none before them and none of `before`. -/
def firstNodesAfter (before : List Document) : List Document → List Document
  | [] => []
  | node :: rest =>
    if before.any (·.sameValue node) then firstNodesAfter (before ++ [node]) rest
    else node :: firstNodesAfter (before ++ [node]) rest

/-- The first occurrence of each value. -/
def firstNodes (nodes : List Document) : List Document := firstNodesAfter [] nodes

/-- The items of an array, or a single node. -/
def memberNodes : Document → List Document
  | .array items => items
  | node => [node]

/-- The phrases that ask for a set. -/
def setPhrases : List String := ["IN", "NOT IN", "ANY", "SOME", "ALL"]

/-- The nodes of an operand that are bound for the modifier that the token spells. -/
def operandNodes (token : String) (operand : Document) : List Document :=
  if Text.keyword token = "BETWEEN" then operand.memberNodes
  else if Text.phrase token ∈ setPhrases then firstNodes operand.memberNodes
  else if Text.keyword token = "LIKE" then [operand]
  else operand.firstLeaf?.toList

instance (token : String) : Decidable (ListModifier token) := decidable_of_iff _ Modifier.leadsList_iff

/-- The nodes in the content of a field that are bound. No token of a modifier is among them. -/
def contentNodes : Document → List Document
  | .object [(token, operand)] => operandNodes token operand
  | .array [.string token, operand] => if ListModifier token then operandNodes token operand else [.string token]
  | content => content.firstLeaf?.toList

/-- The nodes of a document that are bound, field by field in document order. -/
def boundNodes (d : Document) : List Document := d.fields.flatMap fun entry => contentNodes entry.2

/-! ### Values of nodes -/

theorem member_eq_ok {key modifier : String} {node : Document} {v : Value} (h : member key modifier node = .ok v) :
    node.toValue? = some v := by
  rw [member] at h
  split at h
  · rename_i w hw
    rw [hw, Except.ok.inj h]
  · cases h

theorem map_toValue?_mapM {key modifier : String} {items : List Document} {values : List Value}
    (h : items.mapM (member key modifier) = .ok values) : items.map toValue? = values.map some := by
  induction items generalizing values with
  | nil =>
    cases h
    rfl
  | cons item rest ih =>
    obtain ⟨v, values', hv, hvalues, rfl⟩ := Outcome.mapM_cons_eq_ok.mp h
    rw [List.map_cons, List.map_cons, member_eq_ok hv, ih hvalues]

/-- The values of a set or a range are those of its member nodes, one for each. -/
theorem map_toValue?_memberNodes {key modifier : String} {operand : Document} {values : List Value}
    (h : members key modifier operand = .ok values) : operand.memberNodes.map toValue? = values.map some := by
  cases operand with
  | array items => exact map_toValue?_mapM h
  | _ =>
    obtain ⟨v, hv, h⟩ := Outcome.bind_eq_ok.mp h
    obtain rfl := Outcome.pure_eq_ok.mp h
    exact congrArg (fun value => [value]) (member_eq_ok hv)

theorem map_toValue?_bounds {key : String} {operand : Document} {low high : Value}
    (h : bounds key operand = .ok (low, high)) : operand.memberNodes.map toValue? = [some low, some high] := by
  cases operand with
  | array items =>
    obtain ⟨values, hvalues, h⟩ := Outcome.bind_eq_ok.mp h
    split at h
    · cases Outcome.pure_eq_ok.mp h
      exact map_toValue?_memberNodes hvalues
    · cases h
  | _ => cases h

/-- A scalar operand is read as the value of its first leaf. -/
theorem map_toValue?_scalar {key modifier : String} {operand : Document} {v : Value}
    (h : scalar key modifier operand = .ok v) : operand.firstLeaf?.toList.map toValue? = [some v] := by
  rw [scalar] at h
  cases hleaf : operand.firstLeaf? with
  | none =>
    rw [hleaf] at h
    cases h
  | some leaf =>
    simp only [hleaf] at h
    cases hvalue : leaf.toValue? with
    | none =>
      rw [hvalue] at h
      cases h
    | some w =>
      rw [hvalue] at h
      rw [Option.toList_some, List.map_singleton, hvalue, Except.ok.inj h]

theorem sameValue_eq {a b : Document} {v w : Value} (ha : a.toValue? = some v) (hb : b.toValue? = some w) :
    a.sameValue b = v.same w := by
  rw [sameValue, ha, hb]

/-- Nodes are told apart by their values, so the first nodes stand for the first occurrences. -/
theorem map_toValue?_firstNodesAfter {before nodes : List Document} {seen values : List Value}
    (hbefore : List.Forall₂ (fun node v => node.toValue? = some v) before seen)
    (h : List.Forall₂ (fun node v => node.toValue? = some v) nodes values) :
    (firstNodesAfter before nodes).map toValue? = (Value.firstsAfter seen values).map some := by
  induction h generalizing before seen with
  | nil => rfl
  | @cons node v nodes values hv _ ih =>
    -- Whether a node was there before is asked of its value alone.
    have hany : before.any (·.sameValue node) = seen.any (·.same v) := by
      clear ih
      induction hbefore with
      | nil => rfl
      | cons hw _ ih => rw [List.any_cons, List.any_cons, sameValue_eq hw hv, ih]
    have hseen : List.Forall₂ (fun node v => node.toValue? = some v) (before ++ [node]) (seen ++ [v]) :=
      List.rel_append hbefore (.cons hv .nil)
    rw [firstNodesAfter, Value.firstsAfter, hany]
    split
    · exact ih hseen
    · rw [List.map_cons, List.map_cons, hv, ih hseen]

theorem map_toValue?_firstNodes {nodes : List Document} {values : List Value}
    (h : nodes.map toValue? = values.map some) : (firstNodes nodes).map toValue? = (Value.firsts values).map some := by
  refine map_toValue?_firstNodesAfter .nil ?_
  have hall := List.forall₂_eq_eq_eq ▸ h
  exact List.forall₂_map_left_iff.mp (List.forall₂_map_right_iff.mp hall)

end Document

/-- The values that a test is written for. -/
inductive Test.Takes : Test → List Value → Prop
  | compare {operator : Option String} {v : Value} : Test.Takes (.compare operator v) [v]
  | between {low high : Value} : Test.Takes (.between low high) [low, high]
  | oneOf {relation : SetRelation} {values : List Value} : Test.Takes (.oneOf relation values) (Value.firsts values)
  | like {pattern : Value} : Test.Takes (.like pattern) [pattern]

theorem Dialect.flatMap_params_valueFragment (d : Dialect) (values : List Value) :
    values.flatMap (fun v => (d.valueFragment v).params) = values.filter (!·.isNull) := by
  induction values with
  | nil => rfl
  | cons v rest ih =>
    rw [List.flatMap_cons, ih, params_valueFragment, List.filter_cons]
    cases v.isNull <;> rfl

/-- A test binds the values it is written for, except for the nulls. -/
theorem Test.Takes.params_fragment {test : Test} {values : List Value} (h : test.Takes values) (name : String) :
    (test.fragment name).params = values.filter (!·.isNull) := by
  rw [← Dialect.generic.flatMap_params_valueFragment]
  cases h with
  | oneOf =>
    rw [← Value.distinct_eq_firsts]
    simp [Test.fragment, Dialect.setFragment_eq_join, Fragment.params_join, List.flatMap_map]
  | _ => simp [Test.fragment]

namespace Document

/-- The five phrases are those of the set relations. -/
theorem phrase_mem_iff {token : String} :
    Text.phrase token ∈ setPhrases ↔ ∃ relation : SetRelation, Text.phrase token = relation.words := by
  constructor
  · intro h
    simp only [setPhrases, List.mem_cons, List.not_mem_nil, or_false] at h
    rcases h with h | h | h | h | h
    · exact ⟨.isIn, h⟩
    · exact ⟨.notIn, h⟩
    · exact ⟨.any, h⟩
    · exact ⟨.some, h⟩
    · exact ⟨.all, h⟩
  · rintro ⟨relation, h⟩
    rw [h]
    cases relation <;> decide

/-- The nodes of an operand, by the class of the token. -/
theorem operandNodes_eq (token : String) (operand : Document) :
    operandNodes token operand = match Modifier.ofToken token with
      | .between => operand.memberNodes
      | .set _ => firstNodes operand.memberNodes
      | .like => [operand]
      | .comparison => operand.firstLeaf?.toList := by
  have hnot : (∀ relation : SetRelation, Text.phrase token ≠ relation.words) → Text.phrase token ∉ setPhrases := by
    intro hs hmem
    obtain ⟨relation, hr⟩ := phrase_mem_iff.mp hmem
    exact hs relation hr
  rw [operandNodes]
  rcases Modifier.ofToken_cases token with ⟨h, ht⟩ | ⟨relation, h, ht⟩ | ⟨h, ht⟩ | ⟨hb, hs, hl, ht⟩ <;> rw [ht]
  · rw [if_pos h]
  · rw [if_neg fun hb => Modifier.phrase_ne_words_of_between hb relation h, if_pos (phrase_mem_iff.mpr ⟨relation, h⟩)]
  · rw [if_neg (by rw [h]; decide), if_neg (hnot (Modifier.phrase_ne_words_of_like h)), if_pos h]
  · rw [if_neg hb, if_neg (hnot hs), if_neg hl]

/-- The values of a test are those of the nodes of the operand, for each class of tokens. -/
theorem takes_of_modified {key token : String} {operand : Document} {test : Test}
    (h : modified key token operand = .ok test) :
    ∃ values, test.Takes values ∧ (operandNodes token operand).map toValue? = values.map some := by
  obtain ⟨hclass, low, high, hbounds, rfl⟩ | ⟨relation, values, hclass, hvalues, rfl⟩ | ⟨hclass, pattern, hpattern, rfl⟩ |
    ⟨hclass, v, hv, rfl⟩ := modified_eq_ok h <;> rw [operandNodes_eq, hclass]
  · exact ⟨[low, high], .between, map_toValue?_bounds hbounds⟩
  · exact ⟨Value.firsts values, .oneOf, map_toValue?_firstNodes (map_toValue?_memberNodes hvalues)⟩
  · exact ⟨[pattern], .like, congrArg (fun value => [value]) hpattern⟩
  · exact ⟨[v], .compare, map_toValue?_scalar hv⟩

/-- A scalar and a list of data are bound by their first leaf. -/
theorem contentNodes_eq_firstLeaf {content : Document} (hobject : ∀ members, content ≠ .object members)
    (hdata : ∀ token operand, content = .array [.string token, operand] → ¬ListModifier token) :
    content.contentNodes = content.firstLeaf?.toList := by
  by_cases hpair : ∃ token operand, content = .array [.string token, operand]
  · obtain ⟨token, operand, rfl⟩ := hpair
    rw [contentNodes, if_neg (hdata token operand rfl)]
    rfl
  · rw [contentNodes]
    · rintro token operand rfl
      exact hobject _ rfl
    · rintro token operand rfl
      exact hpair ⟨token, operand, rfl⟩

/-- The values of a test are those of the nodes in the content of the field. -/
theorem takes_of_fieldTest {key : String} {content : Document} {test : Test} (h : fieldTest key content = .ok test) :
    ∃ values, test.Takes values ∧ (contentNodes content).map toValue? = values.map some := by
  obtain ⟨token, operand, rfl, h⟩ | ⟨token, operand, rfl, hlead, h⟩ | ⟨items, v, rfl, hdata, hv, rfl⟩ |
    ⟨harray, hobject, v, hv, rfl⟩ := fieldTest_eq_ok h
  · exact takes_of_modified h
  · have hlist : ListModifier token := Modifier.leadsList_iff.mp hlead
    rw [contentNodes, if_pos hlist]
    exact takes_of_modified h
  · have hdata : ∀ token operand, Document.array items = .array [.string token, operand] → ¬ListModifier token := by
      rintro token operand ⟨rfl⟩ hlist
      exact Bool.eq_false_iff.mp (hdata token operand rfl) (Modifier.leadsList_iff.mpr hlist)
    have hobject : ∀ members, Document.array items ≠ .object members := nofun
    rw [contentNodes_eq_firstLeaf hobject hdata]
    exact ⟨[v], .compare, map_toValue?_scalar hv⟩
  · rw [contentNodes_eq_firstLeaf hobject fun _ _ h => absurd h (harray _)]
    exact ⟨[v], .compare, map_toValue?_scalar hv⟩

/-- A field binds the values of its nodes, except for the nulls. -/
theorem params_of_fieldTest {key : String} {content : Document} {test : Test} (h : fieldTest key content = .ok test) :
    (test.fragment key).params.map some = ((contentNodes content).map toValue?).filter (· ≠ some .null) := by
  obtain ⟨values, htakes, hvalues⟩ := takes_of_fieldTest h
  have hnull : ∀ v : Value, (!v.isNull) = decide (some v ≠ some Value.null) := by
    intro v
    cases v <;> simp [Value.isNull]
  rw [htakes.params_fragment, hvalues, List.filter_map]
  congr 2
  exact funext hnull

/-! ### Values of conditions -/

/-- Conditions that were read bind the values of the nodes of their fields, in the order of the fields. -/
theorem ReadAs.params {fields : List (String × Document)} {cs : List Condition} (h : ReadAs fields cs)
    {parent : Connective} {clauses : List Clause} (hgives : List.Forall₂ (Condition.Gives parent) cs clauses) :
    (clauses.flatMap (·.toFragment.params)).map some =
      ((fields.flatMap fun entry => contentNodes entry.2).map toValue?).filter (· ≠ some .null) := by
  induction h generalizing parent clauses with
  | nil =>
    cases hgives
    rfl
  | field _ htest _ ih =>
    cases hgives with
    | cons hg hgs =>
      obtain ⟨-, -, rfl⟩ := Condition.gives_field.mp hg
      rw [List.flatMap_cons, List.map_append, ih hgs, List.flatMap_cons, List.map_append, List.filter_append,
        ← params_of_fieldTest htest]
      rfl
  | group _ _ _ ihchildren ih =>
    cases hgives with
    | cons hg hgs =>
      -- The values of a group are those of its own fields, between those before it and those after it.
      obtain ⟨-, nested, hnested, rfl⟩ := Condition.gives_group.mp hg
      have hinner := ihchildren (Tree.ofConditions_eq_ok_iff.mp hnested).2
      rw [← Tree.params_toFragment] at hinner
      rw [List.flatMap_cons, List.map_append, ih hgs, List.flatMap_append, List.map_append, List.filter_append, ← hinner]
      rfl

end Document

/-- An accepted document binds the values of those of its nodes that are bound, in document order and without the
    nulls. Each of these nodes stands for a value. -/
theorem Tree.bindings_of_ofDocument {d : Document} {t : Tree} (h : (Tree.ofDocument d).outcome = .ok t) :
    t.bindings.value.map some = (d.boundNodes.map Document.toValue?).filter (· ≠ some .null) ∧
      ∀ v ∈ t.bindings.value, v.isNull = false := by
  rw [outcome_ofDocument] at h
  obtain ⟨cs, hcs, ht⟩ := Outcome.bind_eq_ok.mp h
  have hbound := (Document.readAs_conditions hcs).params (Tree.ofConditions_eq_ok_iff.mp ht).2
  rw [← params_toFragment, ← value_bindings] at hbound
  refine ⟨hbound, fun v hv => ?_⟩
  have hmem : some v ∈ t.bindings.value.map some := List.mem_map_of_mem hv
  rw [hbound] at hmem
  have hne : some v ≠ some Value.null := of_decide_eq_true (List.mem_filter.mp hmem).2
  exact Bool.eq_false_iff.mpr fun hnull => hne (congrArg some (Value.isNull_iff.mp hnull))

theorem Tree.bindings_of_ofDocument_nested :
    ∃ d t, d = Document.object [
        ("a", .null),
        ("b", .array [.string " between ", .array [.bool false, .null]]),
        ("or", .array [
          .object [("c", .object [("not  in", .array [.string "x", .null, .string "x", .string "y"])])],
          .object [("d", .array [.array [.array [.string "deep", .bool true]], .string "beside"])]]),
        ("e", .object [("LIKE", .string "%")]),
        ("f", .array [.string "first", .string "IN"])] ∧
      (Tree.ofDocument d).outcome = .ok t ∧
      (t.bindings.value.map some = (d.boundNodes.map Document.toValue?).filter (· ≠ some .null) ∧
        ∀ v ∈ t.bindings.value, v.isNull = false) ∧
      t.bindings.value = [.bool false, .text "x", .text "y", .text "deep", .text "%", .text "first"] := by
  refine ⟨_, ⟨.and, [
      .field "a" (.compare none .null),
      .field "b" (.between (.bool false) .null),
      .fragment ⟨"((c NOT IN (?, NULL, ?)) OR (d = ?))", [.text "x", .text "y", .text "deep"]⟩,
      .field "e" (.like (.text "%")),
      .field "f" (.compare (some "0") (.text "first"))]⟩, rfl, ?accepted, bindings_of_ofDocument ?accepted, rfl⟩
  decide +kernel

end Criteria
