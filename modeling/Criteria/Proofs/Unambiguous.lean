import Criteria.Proofs.Building
import Criteria.Proofs.FirstOccurrence
import Criteria.Proofs.Outline
import Criteria.Proofs.Pieces

/-! Rendering is unambiguous. Where fields are plain names and operators are numbers or known comparison operators, a
    rendered text is the text of the outline of the conditions, so conditions of one text have one outline. -/

namespace Criteria
open Outline

/-- The operator written between a field and a value. -/
def Comparator.resolve (v : Value) {token : Option String} (h : Operator.Known token) : Comparator :=
  ⟨Operator.resolve v token, Operator.resolve_mem_vocabulary v h⟩

/-- What a test shows of itself. A set shows the first occurrences of its values. -/
inductive Test.Outlines : Test → Test.Form → Prop
  | compare {token : Option String} {v : Value} (h : Operator.Known token) :
      Test.Outlines (.compare token v) (.comparison (Comparator.resolve v h) v.isNull)
  | between {low high : Value} : Test.Outlines (.between low high) (.range low.isNull high.isNull)
  | oneOf {relation : SetRelation} {values : List Value} :
      Test.Outlines (.oneOf relation values) (.set relation ((Value.firsts values).map Value.isNull))
  | like {pattern : Value} : Test.Outlines (.like pattern) (.pattern pattern.isNull)

mutual

/-- The outline of a condition in a list joined by `parent`. -/
inductive Condition.Outlines : Connective → Condition → Outline → Prop
  | field {parent : Connective} {name : String} {test : Test} {form : Test.Form}
      (h : name ≠ "" ∧ name.toList.all isNameChar = true) : test.Outlines form →
      Condition.Outlines parent (.field name test) (.test ⟨name, h⟩ form)
  | group {parent : Connective} {connective : Option Connective} {children : List Condition}
      {members : List Outline} : Condition.OutlinesEach (connective.getD parent.flip) children members →
      Condition.Outlines parent (.group connective children) (Outline.ofList (connective.getD parent.flip) members)
  | tree {parent : Connective} {t : Tree} {o : Outline} : Tree.Outlines t o → Condition.Outlines parent (.tree t) o

/-- The outlines of the conditions of a list. -/
inductive Condition.OutlinesEach : Connective → List Condition → List Outline → Prop
  | nil {parent : Connective} : Condition.OutlinesEach parent [] []
  | cons {parent : Connective} {c : Condition} {cs : List Condition} {member : Outline} {members : List Outline} :
      c.Outlines parent member → Condition.OutlinesEach parent cs members →
      Condition.OutlinesEach parent (c :: cs) (member :: members)

/-- An embedded tree has the outline of the list that it was built from. -/
inductive Tree.Outlines : Tree → Outline → Prop
  | built {s : Connective} {cs : List Condition} {t : Tree} {members : List Outline} :
      (Tree.ofConditions s cs).outcome = .ok t → Condition.OutlinesEach s cs members →
      Tree.Outlines t (Outline.ofList s members)

end

/-! ### Texts of outlines -/

/-- A joined list of texts is its first text and each of the others after a separator. -/
theorem Outline.toList_intercalate_append (separator text : String) (texts : List String) :
    (separator.intercalate (text :: texts)).toList ++ [')'] =
      text.toList ++ closedAfter separator.toList (texts.map String.toList) := by
  induction texts generalizing text with
  | nil => rw [String.intercalate_singleton, List.map_nil, closedAfter, List.flatMap_nil, List.nil_append]
  | cons second texts ih =>
    rw [String.intercalate_cons_cons, String.toList_append, String.toList_append, List.append_assoc, ih,
      List.append_assoc, List.map_cons, closedAfter_cons]

/-- A list between parentheses has the text of the outline of the list, if its members have the texts of theirs. -/
theorem Connective.toList_enclose {s : Connective} {texts : List String} {members : List Outline}
    (h : texts.map String.toList = members.map Outline.chars) :
    (s.enclose texts).toList = (Outline.ofList s members).chars := by
  have hopen : "(".toList = ['('] := by decide
  have hclose : ")".toList = [')'] := by decide
  cases texts with
  | nil =>
    obtain rfl := List.map_eq_nil_iff.mp h.symm
    rfl
  | cons text texts =>
    cases members with
    | nil => cases h
    | cons member members =>
      obtain ⟨hfirst, hrest⟩ := List.cons.inj h
      rw [enclose, List.isEmpty_cons, if_neg Bool.false_ne_true, String.toList_append, String.toList_append, hopen,
        hclose, List.append_assoc, toList_intercalate_append, hfirst, hrest]
      -- A single member stands between parentheses as well, but shows no connective.
      cases members with
      | nil => rfl
      | cons second members =>
        rw [Outline.ofList, Outline.chars, charsEach_eq_map]
        rfl

theorem Dialect.toList_valueFragment (v : Value) :
    (Dialect.generic.valueFragment v).sql.toList = slotChars v.isNull := by
  cases v with
  | null => rfl
  | _ => exact (by decide : "?".toList = ['?'])

/-- A set is written as what it shows of its values, since both go by the first occurrences. -/
theorem Dialect.toList_setFragment_append (values : List Value) :
    (Dialect.generic.setFragment values).sql.toList ++ [')'] = setChars ((Value.firsts values).map Value.isNull) := by
  rw [setFragment_eq_join, Fragment.sql_join, Value.distinct_eq_firsts, List.map_map]
  cases Value.firsts values with
  | nil => rfl
  | cons v rest =>
    rw [List.map_cons, Outline.toList_intercalate_append, List.map_cons, setChars, Function.comp_apply,
      Dialect.toList_valueFragment, List.map_map, List.map_map]
    have hslots : String.toList ∘ Fragment.sql ∘ Dialect.generic.valueFragment = slotChars ∘ Value.isNull :=
      funext Dialect.toList_valueFragment
    rw [hslots]

/-- A test is written as its field, a blank and the text of its form. -/
theorem Test.Outlines.toList_fragment {test : Test} {form : Test.Form} (h : test.Outlines form) (name : String) :
    (test.fragment name).sql.toList = name.toList ++ ' ' :: form.chars := by
  have hblank : " ".toList = [' '] := by decide
  have hclose : ")".toList = [')'] := by decide
  have hbetween : " BETWEEN ".toList = ' ' :: "BETWEEN ".toList := by decide
  have hlike : " LIKE ".toList = ' ' :: "LIKE ".toList := by decide
  cases h with
  | compare h =>
    simp only [Test.fragment, Fragment.sql_append, Fragment.sql_ofText, String.toList_append, List.append_assoc,
      Dialect.toList_valueFragment, hblank, List.cons_append, List.nil_append]
    rw [Test.Form.chars_comparison, Comparator.resolve]
  | between =>
    simp only [Test.fragment, Fragment.sql_append, Fragment.sql_ofText, String.toList_append, List.append_assoc,
      Dialect.toList_valueFragment, hbetween, List.cons_append]
    rw [Test.Form.chars_range]
  | oneOf =>
    simp only [Test.fragment, Fragment.sql_append, Fragment.sql_ofText, String.toList_append, List.append_assoc,
      hblank, hclose, Dialect.toList_setFragment_append, List.cons_append, List.nil_append]
    rw [Test.Form.chars_set, String.toList_append, List.append_assoc]
  | like =>
    simp only [Test.fragment, Fragment.sql_append, Fragment.sql_ofText, String.toList_append, List.append_assoc,
      Dialect.toList_valueFragment, hlike, List.cons_append]
    rw [Test.Form.chars_pattern]

/-- A tree has the text of the outline of its conditions, if each of its clauses has the text of its own. -/
theorem Tree.toList_sql_of_gives {s : Connective} {cs : List Condition} {t : Tree} {members : List Outline}
    (ht : (Tree.ofConditions s cs).outcome = .ok t)
    (h : ∀ clauses, List.Forall₂ (Condition.Gives s) cs clauses →
      clauses.map (·.toFragment.sql.toList) = members.map chars) :
    t.toFragment.sql.toList = (Outline.ofList s members).chars := by
  obtain ⟨rfl, hgives⟩ := Tree.ofConditions_eq_ok_iff.mp ht
  rw [Tree.sql_toFragment]
  apply Connective.toList_enclose
  rw [List.map_map]
  exact h t.clauses hgives

mutual

theorem Condition.Outlines.toList_sql {parent : Connective} {c : Condition} {o : Outline} :
    c.Outlines parent o → ∀ {clause : Clause}, c.Gives parent clause → clause.toFragment.sql.toList = o.chars
  | .field _ h, clause, hg => by
    rw [(Condition.gives_field.mp hg).2.2]
    exact h.toList_fragment _
  | .group h, clause, hg => by
    obtain ⟨nested, hn, hclause⟩ := (Condition.gives_group.mp hg).2
    rw [hclause]
    exact Tree.toList_sql_of_gives hn fun clauses hgives => h.map_toList_sql hgives
  | .tree h, clause, hg => by
    rw [Condition.gives_tree.mp hg]
    exact h.toList_sql

theorem Condition.OutlinesEach.map_toList_sql {parent : Connective} {cs : List Condition} {members : List Outline} :
    Condition.OutlinesEach parent cs members → ∀ {clauses : List Clause},
      List.Forall₂ (Condition.Gives parent) cs clauses →
      clauses.map (·.toFragment.sql.toList) = members.map chars
  | .nil, clauses, hgives => by
    cases hgives
    rfl
  | .cons h hrest, clauses, hgives => by
    cases hgives with
    | cons hg hgs => rw [List.map_cons, List.map_cons, h.toList_sql hg, hrest.map_toList_sql hgs]

theorem Tree.Outlines.toList_sql {t : Tree} {o : Outline} : t.Outlines o → t.toFragment.sql.toList = o.chars
  | .built ht h => Tree.toList_sql_of_gives ht fun _ hgives => h.map_toList_sql hgives

end

/-- Conditions of one text have one outline, whatever the connectives of the two lists. -/
theorem Tree.outline_eq_of_render_eq {s s' : Connective} {cs cs' : List Condition} {t t' : Tree}
    {members members' : List Outline} (hcs : Condition.OutlinesEach s cs members)
    (hcs' : Condition.OutlinesEach s' cs' members') (ht : (Tree.ofConditions s cs).outcome = .ok t)
    (ht' : (Tree.ofConditions s' cs').outcome = .ok t') (h : t.render.value = t'.render.value) :
    Outline.ofList s members = Outline.ofList s' members' := by
  have hchars : t.toFragment.sql.toList = (Outline.ofList s members).chars := Tree.Outlines.toList_sql (.built ht hcs)
  have hchars' : t'.toFragment.sql.toList = (Outline.ofList s' members').chars :=
    Tree.Outlines.toList_sql (.built ht' hcs')
  apply chars_injective
  rw [Tree.value_render, Tree.value_render] at h
  rw [← hchars, ← hchars', h]

theorem Tree.outline_eq_of_render_eq_nested :
    ∃ cs cs' members members' t t', cs = [Condition.group none [
          .field "a" (.compare none (.int 1)),
          .field "b" (.compare (some " is ") .null),
          .field "c" (.oneOf .notIn [.int 1, .null, .int 1])]] ∧
      cs' = [Condition.tree ⟨.or, [
          .field "a" (.compare (some "+0.5") (.text "AND")),
          .field "b" (.compare none .null),
          .field "c" (.oneOf .notIn [.bool true, .null])]⟩] ∧
      Condition.OutlinesEach .and cs members ∧ Condition.OutlinesEach .or cs' members' ∧
      (Tree.ofConditions .and cs).outcome = .ok t ∧ (Tree.ofConditions .or cs').outcome = .ok t' ∧
      t.render.value = t'.render.value ∧ Outline.ofList .and members = Outline.ofList .or members' := by
  have hnone : Operator.Known none := fun _ h => nomatch h
  have hspelled : Operator.Known (some " is ") := by decide +kernel
  have hposition : Operator.Known (some "+0.5") := by decide +kernel
  have ha : "a" ≠ "" ∧ "a".toList.all isNameChar = true := by decide
  have hb : "b" ≠ "" ∧ "b".toList.all isNameChar = true := by decide
  have hc : "c" ≠ "" ∧ "c".toList.all isNameChar = true := by decide
  have hgroup : Condition.OutlinesEach .or _ _ :=
    .cons (.field ha (.compare (v := .int 1) hnone)) (.cons (.field hb (.compare (v := .null) hspelled))
      (.cons (.field hc (@Test.Outlines.oneOf .notIn [.int 1, .null, .int 1])) .nil))
  have htree : Condition.OutlinesEach .or _ _ :=
    .cons (.field ha (.compare (v := .text "AND") hposition)) (.cons (.field hb (.compare (v := .null) hnone))
      (.cons (.field hc (@Test.Outlines.oneOf .notIn [.bool true, .null])) .nil))
  have hcs : Condition.OutlinesEach .and _ _ := .cons (@Condition.Outlines.group .and none _ _ hgroup) .nil
  have hcs' : Condition.OutlinesEach .or _ _ := .cons (.tree (.built rfl htree)) .nil
  exact ⟨_, _, _, _, _, _, rfl, rfl, hcs, hcs', rfl, rfl, by decide +kernel,
    outline_eq_of_render_eq hcs hcs' rfl rfl (by decide +kernel)⟩

end Criteria
