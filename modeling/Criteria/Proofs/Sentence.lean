import Criteria.Proofs.Grammar
import Criteria.Proofs.Items
import Criteria.Proofs.Vocabulary

/-! The SQL of documents. What a document is written as follows a grammar whose only texts are the keys of its fields, a
    few words, and places for values. The data of a document, which are its scalars and the contents of its lists, are
    nowhere in it: they are bound to the places. -/

namespace Criteria

/-- A place for a value, with the number of values that are bound there. -/
inductive Place : String → Nat → Prop
  | placeholder : Place "?" 1
  | null : Place "NULL" 0

/-- Places with commas between them. -/
inductive Places : String → Nat → Prop
  | one {place : String} {n : Nat} : Place place n → Places place n
  | more {place places : String} {n m : Nat} : Place place n → Places places m → Places (place ++ ", " ++ places) (n + m)

namespace Document

/-- The operators that may stand before a place, by the content of the field. A scalar and a list leave ten of them,
    the modifier of an object is written in its normal form. -/
inductive OperatorBefore (place : String) : Document → String → Prop
  | listed {content : Document} {operator : String} : (∀ members, content ≠ .object members) →
      operator ∈ Operator.vocabulary → OperatorBefore place content operator
  | modifier {token : String} {operand : Document} {v : Value} : (v.isNull = true ↔ place = "NULL") →
      OperatorBefore place (.object [(token, operand)]) (Operator.resolve v (some token))

/-- The text for a field, given by its key and its content. -/
inductive FieldText (key : String) (content : Document) : String → Nat → Prop
  | comparison {operator place : String} {n : Nat} : OperatorBefore place content operator → Place place n →
      FieldText key content (key ++ " " ++ operator ++ " " ++ place) n
  | between {low high : String} {n m : Nat} : Place low n → Place high m →
      FieldText key content (key ++ " BETWEEN " ++ low ++ " AND " ++ high) (n + m)
  | like {place : String} {n : Nat} : Place place n → FieldText key content (key ++ " LIKE " ++ place) n
  | set {relation : SetRelation} {places : String} {n : Nat} : Places places n →
      FieldText key content (key ++ " " ++ relation.words ++ " (" ++ places ++ ")") n

mutual

/-- The text for a group with entries, all of them joined by one connective. -/
inductive TreeText : Document → String → Nat → Prop
  | object {entries : List (String × Document)} {s : Connective} {texts : List String} {n : Nat} : entries ≠ [] →
      EntryTexts entries texts n →
      TreeText (.object entries) ("(" ++ (" " ++ s.word ++ " ").intercalate texts ++ ")") n
  | array {items : List Document} {s : Connective} {texts : List String} {n : Nat} : items ≠ [] →
      ItemTexts items texts n →
      TreeText (.array items) ("(" ++ (" " ++ s.word ++ " ").intercalate texts ++ ")") n

/-- One text for each member of an object: a nested group or a field. -/
inductive EntryTexts : List (String × Document) → List String → Nat → Prop
  | nil : EntryTexts [] [] 0
  | group {key : String} {content : Document} {rest : List (String × Document)} {text : String} {texts : List String}
      {n m : Nat} : GroupKey key → TreeText content text n → EntryTexts rest texts m →
      EntryTexts ((key, content) :: rest) (text :: texts) (n + m)
  | field {key : String} {content : Document} {rest : List (String × Document)} {text : String} {texts : List String}
      {n m : Nat} : ¬GroupKey key → FieldText key content text n → EntryTexts rest texts m →
      EntryTexts ((key, content) :: rest) (text :: texts) (n + m)

/-- One nested group for each item of an array. -/
inductive ItemTexts : List Document → List String → Nat → Prop
  | nil : ItemTexts [] [] 0
  | cons {item : Document} {rest : List Document} {text : String} {texts : List String} {n m : Nat} :
      TreeText item text n → ItemTexts rest texts m → ItemTexts (item :: rest) (text :: texts) (n + m)

end

/-- The text for a whole document. -/
inductive RootText : Document → String → Nat → Prop
  | tautology {d : Document} : d = .null ∨ d.IsEmpty → RootText d "(1=1)" 0
  | tree {d : Document} {text : String} {n : Nat} : TreeText d text n → RootText d text n

end Document

theorem place_valueFragment (v : Value) :
    Place (Dialect.generic.valueFragment v).sql (Dialect.generic.valueFragment v).params.length := by
  cases v with
  | null => exact .null
  | _ => exact .placeholder

/-- The values of a set are written in places with commas between them, one place for each. -/
theorem places_join {values : List Value} (h : values ≠ []) :
    Places (Fragment.join ", " (values.map Dialect.generic.valueFragment)).sql
      (Fragment.join ", " (values.map Dialect.generic.valueFragment)).params.length := by
  induction values with
  | nil => exact absurd rfl h
  | cons v rest ih =>
    cases rest with
    | nil => exact .one (place_valueFragment v)
    | cons w rest =>
      have hplaces := Places.more (place_valueFragment v) (ih (List.cons_ne_nil w rest))
      rw [List.map_cons, List.map_cons, Fragment.join_cons_cons]
      simpa using hplaces

theorem Value.distinct_ne_nil {values : List Value} (h : values ≠ []) : distinct values ≠ [] := by
  cases values with
  | nil => exact absurd rfl h
  | cons v rest => exact List.cons_ne_nil _ _

theorem places_setFragment {values : List Value} (h : values ≠ []) :
    Places (Dialect.generic.setFragment values).sql (Dialect.generic.setFragment values).params.length := by
  rw [Dialect.setFragment_eq_join]
  exact places_join (Value.distinct_ne_nil h)

/-! ### Fields -/

/-- A value is null exactly if its place says so, so the operator goes by the place. -/
theorem isNull_iff_sql_valueFragment (v : Value) :
    v.isNull = true ↔ (Dialect.generic.valueFragment v).sql = "NULL" := by
  by_cases hv : v.isNull = true
  · rw [Value.isNull_iff.mp hv]
    exact iff_of_true rfl rfl
  · rw [Dialect.valueFragment_of_isNull _ (Bool.eq_false_iff.mpr hv)]
    exact iff_of_false hv (show ¬"?" = "NULL" by decide)

namespace Document
variable {key token : String} {content operand : Document} {test : Test}

/-- The text of a test by a modifier, if its comparisons are written by an operator that may stand there. -/
theorem fieldText_of_modified (h : modified key token operand = .ok test) (hfault : test.fault? key = none)
    (hoperator : Modifier.ofToken token = .comparison → ∀ v : Value,
      OperatorBefore (Dialect.generic.valueFragment v).sql content (Operator.resolve v (some token))) :
    FieldText key content (test.fragment key).sql (test.fragment key).params.length := by
  obtain ⟨-, low, high, -, rfl⟩ | ⟨relation, values, -, -, rfl⟩ | ⟨-, pattern, -, rfl⟩ | ⟨hclass, v, -, rfl⟩ :=
    modified_eq_ok h
  · have hbetween : FieldText key content _ _ := .between (place_valueFragment low) (place_valueFragment high)
    simpa [Test.fragment] using hbetween
  · have hne : values ≠ [] := by
      rintro rfl
      cases hfault
    have hset := @FieldText.set key content relation _ _ (places_setFragment hne)
    simpa [Test.fragment] using hset
  · have hlike : FieldText key content _ _ := .like (place_valueFragment pattern)
    simpa [Test.fragment] using hlike
  · exact .comparison (hoperator hclass v) (place_valueFragment v)

/-- A comparison operator that heads a list is one of those that a list leaves. -/
theorem operator_mem_of_leadsList (hlead : Modifier.leadsList token = true) (hclass : Modifier.ofToken token = .comparison)
    (v : Value) : Operator.resolve v (some token) ∈ Operator.vocabulary := by
  rw [Modifier.leadsList, hclass] at hlead
  refine Operator.resolve_mem_vocabulary v ?_
  rintro t ⟨rfl⟩
  exact Or.inr hlead

/-- A field is written by the grammar. What a scalar and a list leave are operators of the vocabulary. -/
theorem fieldText_of_fieldTest (h : fieldTest key content = .ok test) (hfault : test.fault? key = none) :
    FieldText key content (test.fragment key).sql (test.fragment key).params.length := by
  obtain ⟨token, operand, rfl, h⟩ | ⟨token, operand, rfl, hlead, h⟩ | ⟨items, v, rfl, -, -, rfl⟩ | ⟨-, hobject, v, -, rfl⟩ :=
    fieldTest_eq_ok h
  · exact fieldText_of_modified h hfault fun _ v => .modifier (isNull_iff_sql_valueFragment v)
  · exact fieldText_of_modified h hfault fun hclass v => .listed nofun (operator_mem_of_leadsList hlead hclass v)
  · -- The position of the first value of a list stands in for an operator.
    have hmem : Operator.resolve v (some "0") ∈ Operator.vocabulary :=
      Operator.resolve_mem_vocabulary v (by decide +kernel)
    exact .comparison (.listed nofun hmem) (place_valueFragment v)
  · have hmem : Operator.resolve v none ∈ Operator.vocabulary := Operator.resolve_mem_vocabulary v nofun
    exact .comparison (.listed hobject hmem) (place_valueFragment v)

/-! ### Groups -/

/-- What the document is read as, as a group, is written by the grammar. -/
def WrittenAsGroup (d : Document) : Prop :=
  ∀ {key : String} {connective : Option Connective} {c : Condition} {parent : Connective} {clause : Clause},
    group key connective d = .ok c → c.Gives parent clause →
      TreeText d clause.toFragment.sql clause.toFragment.params.length

/-- The members of an object are written in their order, each as the group or the field that its key says. -/
theorem entryTexts_of_gives {entries : List (String × Document)} (ih : ∀ entry ∈ entries, WrittenAsGroup entry.2)
    {cs : List Condition} (h : entries.mapM entryCondition = .ok cs) {parent : Connective} {clauses : List Clause}
    (hgives : List.Forall₂ (Condition.Gives parent) cs clauses) :
    EntryTexts entries (clauses.map (·.toFragment.sql)) (clauses.flatMap (·.toFragment.params)).length := by
  induction entries generalizing cs clauses with
  | nil =>
    cases h
    cases hgives
    exact .nil
  | cons entry rest ihrest =>
    obtain ⟨key, content⟩ := entry
    obtain ⟨hcontent, hrest⟩ := List.forall_mem_cons.mp ih
    obtain ⟨c, cs', hc, hcs', rfl⟩ := Outcome.mapM_cons_eq_ok.mp h
    cases hgives with
    | @cons _ clause _ clauses hg hgs =>
      have htail := ihrest hrest hcs' hgs
      rw [List.map_cons, List.flatMap_cons, List.length_append]
      obtain ⟨hkey, connective, hrole⟩ | ⟨hkey, hrole⟩ := keyRole_cases key
      · rw [entryCondition, hrole] at hc
        exact .group hkey (hcontent hc hg) htail
      · rw [entryCondition, hrole] at hc
        obtain ⟨test, htest, rfl⟩ := fieldCondition_eq_ok hc
        obtain ⟨-, hfault, rfl⟩ := Condition.gives_field.mp hg
        exact .field hkey (fieldText_of_fieldTest htest hfault) htail

/-- The items of an array are written in their order, each as a group. -/
theorem itemTexts_of_gives {items : List Document} (ih : ∀ item ∈ items, WrittenAsGroup item) {position : Nat}
    {cs : List Condition} (h : itemConditions position items = .ok cs) {parent : Connective} {clauses : List Clause}
    (hgives : List.Forall₂ (Condition.Gives parent) cs clauses) :
    ItemTexts items (clauses.map (·.toFragment.sql)) (clauses.flatMap (·.toFragment.params)).length := by
  induction items generalizing position cs clauses with
  | nil =>
    cases h
    cases hgives
    exact .nil
  | cons item rest ihrest =>
    obtain ⟨hitem, hrest⟩ := List.forall_mem_cons.mp ih
    obtain ⟨c, cs', hc, hcs', rfl⟩ := Outcome.bind_cons_eq_ok.mp h
    cases hgives with
    | @cons _ clause _ clauses hg hgs =>
      rw [List.map_cons, List.flatMap_cons, List.length_append]
      exact .cons (hitem hc hg) (ihrest hrest hcs' hgs)

/-- A tree with clauses is written between parentheses. -/
theorem toFragment_of_ne_nil {s : Connective} {cs : List Condition} {t : Tree}
    (ht : (Tree.ofConditions s cs).outcome = .ok t) (hne : cs ≠ []) :
    List.Forall₂ (Condition.Gives s) cs t.clauses ∧ t.toFragment.params = t.clauses.flatMap (·.toFragment.params) ∧
      t.toFragment.sql = "(" ++ (" " ++ s.word ++ " ").intercalate (t.clauses.map (·.toFragment.sql)) ++ ")" := by
  obtain ⟨rfl, hgives⟩ := Tree.ofConditions_eq_ok_iff.mp ht
  have hclauses : t.clauses ≠ [] := by
    intro hnil
    rw [hnil] at hgives
    exact hne (List.forall₂_nil_right_iff.mp hgives)
  rw [Tree.sql_toFragment, Connective.enclose_of_ne_nil (by simpa using hclauses)]
  exact ⟨hgives, Tree.params_toFragment t, rfl⟩

/-- A tree with clauses is written as the entries that it was read from. -/
theorem treeText_object {entries : List (String × Document)} {cs : List Condition} {s : Connective} {t : Tree}
    (ih : ∀ entry ∈ entries, WrittenAsGroup entry.2) (h : entryConditions entries = .ok cs)
    (ht : (Tree.ofConditions s cs).outcome = .ok t) (hne : cs ≠ []) :
    TreeText (.object entries) t.toFragment.sql t.toFragment.params.length := by
  have hentries : entries ≠ [] := by
    rintro rfl
    exact hne (Except.ok.inj h).symm
  rw [entryConditions_eq_mapM] at h
  obtain ⟨hgives, hparams, hsql⟩ := toFragment_of_ne_nil ht hne
  rw [hparams, hsql]
  exact .object hentries (entryTexts_of_gives ih h hgives)

theorem treeText_array {items : List Document} {cs : List Condition} {s : Connective} {t : Tree}
    (ih : ∀ item ∈ items, WrittenAsGroup item) (h : itemConditions 0 items = .ok cs)
    (ht : (Tree.ofConditions s cs).outcome = .ok t) (hne : cs ≠ []) :
    TreeText (.array items) t.toFragment.sql t.toFragment.params.length := by
  have hitems : items ≠ [] := by
    rintro rfl
    exact hne (Except.ok.inj h).symm
  obtain ⟨hgives, hparams, hsql⟩ := toFragment_of_ne_nil ht hne
  rw [hparams, hsql]
  exact .array hitems (itemTexts_of_gives ih h hgives)

/-- By induction on the nesting of the document. -/
theorem writtenAsGroup (d : Document) : WrittenAsGroup d := by
  induction d with
  | object entries ih =>
    intro key connective c parent clause h hg
    rw [group] at h
    obtain ⟨children, hchildren, h⟩ := Outcome.bind_eq_ok.mp h
    obtain ⟨hne, rfl⟩ := nonempty_eq_ok.mp h
    obtain ⟨-, nested, hnested, rfl⟩ := Condition.gives_group.mp hg
    exact treeText_object ih hchildren hnested hne
  | array items ih =>
    intro key connective c parent clause h hg
    rw [group] at h
    obtain ⟨children, hchildren, h⟩ := Outcome.bind_eq_ok.mp h
    obtain ⟨hne, rfl⟩ := nonempty_eq_ok.mp h
    obtain ⟨-, nested, hnested, rfl⟩ := Condition.gives_group.mp hg
    exact treeText_array ih hchildren hnested hne
  | _ =>
    intro key connective c parent clause h
    cases h

/-- Each member gives one condition, so no conditions come of no members alone. -/
theorem isEmpty_of_entryConditions {entries : List (String × Document)} (h : entryConditions entries = .ok []) :
    (Document.object entries).IsEmpty := by
  rw [entryConditions_eq_mapM] at h
  obtain rfl := List.eq_nil_of_length_eq_zero (Outcome.length_of_mapM h).symm
  exact Or.inr rfl

theorem isEmpty_of_itemConditions {items : List Document} (h : itemConditions 0 items = .ok []) :
    (Document.array items).IsEmpty := by
  rw [itemConditions_eq_mapM] at h
  have hlength := (Outcome.length_of_mapM h).symm
  rw [List.length_zipIdx] at hlength
  obtain rfl := List.eq_nil_of_length_eq_zero hlength
  exact Or.inl rfl

end Document

/-- A tree without conditions is written as a tautology, which binds nothing. -/
theorem Tree.toFragment_of_nil {s : Connective} {t : Tree} (ht : (Tree.ofConditions s []).outcome = .ok t) :
    t.toFragment = .ofText "(1=1)" := by
  obtain ⟨-, hgives⟩ := Tree.ofConditions_eq_ok_iff.mp ht
  rw [toFragment, List.forall₂_nil_left_iff.mp hgives]
  rfl

/-- The SQL of a document that is accepted follows the grammar: no scalar and no member of a list is in its text, and
    there is one placeholder for each value that is bound. -/
theorem Tree.rootText_of_ofDocument {d : Document} {t : Tree} (h : (Tree.ofDocument d).outcome = .ok t) :
    d.RootText t.build.value.sql t.build.value.params.length := by
  rw [outcome_ofDocument] at h
  obtain ⟨cs, hcs, ht⟩ := Outcome.bind_eq_ok.mp h
  rw [value_build]
  -- A document without entries is a tautology, and any other one a group of its entries.
  by_cases hnil : cs = []
  · subst hnil
    rw [toFragment_of_nil ht]
    refine .tautology ?_
    cases d with
    | null => exact Or.inl rfl
    | object entries => exact Or.inr (Document.isEmpty_of_entryConditions hcs)
    | array items => exact Or.inr (Document.isEmpty_of_itemConditions hcs)
    | _ => cases hcs
  · refine .tree ?_
    cases d with
    | null =>
      cases hcs
      exact absurd rfl hnil
    | object entries => exact Document.treeText_object (fun entry _ => Document.writtenAsGroup entry.2) hcs ht hnil
    | array items => exact Document.treeText_array (fun item _ => Document.writtenAsGroup item) hcs ht hnil
    | _ => cases hcs

theorem Tree.rootText_of_ofDocument_injection :
    ∃ d t, d = Document.object [
        ("a", .array [.string "\u00a0not like\u3000", .array [.string "x) OR (1=1"]]),
        ("b", .array [.string "'; DROP TABLE t", .string "="]),
        ("or", .array [
          .object [("c", .object [("sounds like", .null)])],
          .object [("d", .object [("not  in", .array [.string "?", .null, .string "?"])])]])] ∧
      (Tree.ofDocument d).outcome = .ok t ∧ d.RootText t.build.value.sql t.build.value.params.length ∧
      t.build.value.sql = "(a NOT LIKE ? AND b = ? AND ((c SOUNDS LIKE NULL) OR (d NOT IN (?, NULL))))" := by
  have ht : (Tree.ofDocument (Document.object [
        ("a", .array [.string "\u00a0not like\u3000", .array [.string "x) OR (1=1"]]),
        ("b", .array [.string "'; DROP TABLE t", .string "="]),
        ("or", .array [
          .object [("c", .object [("sounds like", .null)])],
          .object [("d", .object [("not  in", .array [.string "?", .null, .string "?"])])]])])).outcome = .ok ⟨.and, [
      .field "a" (.compare (some "\u00a0not like\u3000") (.text "x) OR (1=1")),
      .field "b" (.compare (some "0") (.text "'; DROP TABLE t")),
      .fragment ⟨"((c SOUNDS LIKE NULL) OR (d NOT IN (?, NULL)))", [.text "?"]⟩]⟩ := by decide +kernel
  exact ⟨_, _, rfl, ht, rootText_of_ofDocument ht, by decide +kernel⟩

end Criteria
