import Criteria.Proofs.Building
import Criteria.Proofs.FirstOccurrence
import Criteria.Proofs.Pieces

/-! Rendering in one pass. Conditions are written out directly as a sequence of items: words, slots that hold one
    value each, and statements with all of their values. Nothing is stored on the way and the connective of a
    group is handed down to it. A tree that was built renders as the items of its conditions. -/

namespace Criteria

/-- One step of the output. A slot never holds null, which is a word. -/
inductive Item where
  | word (s : String)
  | slot (v : Value) (present : v.isNull = false)
  | statement (piece : Fragment)

namespace Item

/-- The text of an item; a slot is a question mark. -/
def sql : Item → String
  | .word s => s
  | .slot _ _ => "?"
  | .statement piece => piece.sql

/-- The values that an item binds. -/
def values : Item → List Value
  | .word _ => []
  | .slot v _ => [v]
  | .statement piece => piece.params

/-- The item for a value. -/
def ofValue (v : Value) : Item :=
  if h : v.isNull = true then .word "NULL" else .slot v (Bool.eq_false_iff.mpr h)

/-- The members of a group between parentheses, or a tautology if there are none. -/
def grouped (connective : Connective) (members : List (List Item)) : List Item :=
  if members.isEmpty then [.word "(1=1)"]
  else [.word "("] ++ [.word (" " ++ connective.word ++ " ")].intercalate members ++ [.word ")"]

end Item

/-- The items of a test on a field. A set is written by the first occurrences of its values. -/
def Test.items (name : String) : Test → List Item
  | .compare operator v =>
    [.word name, .word " ", .word (Operator.resolve v operator), .word " ", .ofValue v]
  | .between low high => [.word name, .word " BETWEEN ", .ofValue low, .word " AND ", .ofValue high]
  | .oneOf relation values =>
    [.word name, .word " ", .word relation.words, .word " ("] ++
      [.word ", "].intercalate ((Value.firsts values).map fun v => [.ofValue v]) ++ [.word ")"]
  | .inQuery relation query =>
    [.word name, .word " ", .word relation.words, .word " (", .statement query, .word ")"]
  | .like pattern => [.word name, .word " LIKE ", .ofValue pattern]
  | .equalsRaw expression => [.word name, .word " = ", .statement expression]
  | .equalsQuery query => [.word name, .word " = (", .statement query, .word ")"]

/-- The items of a clause. -/
def Clause.items : Clause → List Item
  | .field name test => test.items name
  | .fragment piece => [.statement piece]

/-- The items of a tree, whose clauses stand in its own parentheses. -/
def Tree.items (t : Tree) : List Item := Item.grouped t.connective (t.clauses.map Clause.items)

namespace Condition

mutual

/-- The items of a condition in a list joined by `parent`. -/
def items (parent : Connective) : Condition → List Item
  | .field name test => test.items name
  | .group connective children =>
    Item.grouped (connective.getD parent.flip) (itemsEach (connective.getD parent.flip) children)
  | .raw piece => [.statement piece]
  | .tree t => t.items

/-- The items of each condition of a list joined by `parent`. -/
def itemsEach (parent : Connective) : List Condition → List (List Item)
  | [] => []
  | c :: cs => c.items parent :: itemsEach parent cs

end

/-- The items of a whole list. -/
def itemsOf (connective : Connective) (cs : List Condition) : List Item :=
  Item.grouped connective (itemsEach connective cs)

end Condition

/-! ### Items as a piece of SQL -/

namespace Item

/-- The texts of the items and their values, each one after the other. -/
def written (items : List Item) : Fragment := ⟨String.join (items.map sql), items.flatMap values⟩

@[simp] theorem sql_word (s : String) : (word s).sql = s := rfl

@[simp] theorem values_word (s : String) : (word s).values = [] := rfl

@[simp] theorem sql_statement (piece : Fragment) : (statement piece).sql = piece.sql := rfl

@[simp] theorem values_statement (piece : Fragment) : (statement piece).values = piece.params := rfl

@[simp] theorem sql_ofValue (v : Value) : (ofValue v).sql = (Dialect.generic.valueFragment v).sql := by
  cases v <;> rfl

@[simp] theorem values_ofValue (v : Value) :
    (ofValue v).values = (Dialect.generic.valueFragment v).params := by
  cases v <;> rfl

theorem written_append (a b : List Item) : written (a ++ b) = written a ++ written b := by
  ext1
  · simp [written, String.join_append]
  · simp [written]

theorem written_word (s : String) : written [.word s] = .ofText s := by
  ext1 <;> simp [written]

theorem written_statement (piece : Fragment) : written [.statement piece] = piece := by
  ext1 <;> simp [written]

theorem written_ofValue (v : Value) : written [ofValue v] = Dialect.generic.valueFragment v := by
  ext1 <;> simp [written]

/-- Members with a separator between them are written as their pieces joined by it. -/
theorem written_intercalate (separator : String) (members : List (List Item)) :
    written ([.word separator].intercalate members) = .join separator (members.map written) := by
  induction members with
  | nil => rfl
  | cons a rest ih =>
    cases rest with
    | nil => simp [Fragment.join]
    | cons b rest =>
      rw [List.map_cons, List.map_cons, Fragment.join_cons_cons, ← List.map_cons, ← ih, ← written_word,
        ← written_append, ← written_append, List.intercalate_cons_cons]

theorem written_grouped (connective : Connective) (members : List (List Item)) :
    written (grouped connective members) =
      if members.isEmpty then .ofText "(1=1)"
      else .ofText "(" ++ .join (" " ++ connective.word ++ " ") (members.map written) ++ .ofText ")" := by
  rw [grouped]
  split
  · exact written_word _
  · rw [written_append, written_append, written_word, written_word, written_intercalate]

end Item

open Item

/-- A test is written as its items one after the other. -/
theorem Test.fragment_eq_written (name : String) (test : Test) : test.fragment name = written (test.items name) := by
  cases test with
  | oneOf relation values =>
    -- The values that are left by dropping repetitions are the first occurrences.
    have hset : written ([.word ", "].intercalate ((Value.firsts values).map fun v => [ofValue v])) =
        Dialect.generic.setFragment values := by
      rw [written_intercalate, List.map_map, Dialect.setFragment_eq_join, Value.distinct_eq_firsts]
      simp only [Function.comp_def, written_ofValue]
    rw [Test.items, written_append, written_append, hset, written_word]
    ext1 <;> simp [Test.fragment, written, String.append_assoc]
  | _ => ext1 <;> simp [Test.fragment, Test.items, written, String.append_assoc]

theorem Clause.toFragment_eq_written (clause : Clause) : clause.toFragment = written clause.items := by
  cases clause with
  | field name test => exact Test.fragment_eq_written name test
  | fragment piece => exact (written_statement piece).symm

theorem Tree.toFragment_eq_written (t : Tree) : t.toFragment = written t.items := by
  rw [Tree.items, written_grouped, List.map_map, Tree.toFragment]
  simp only [List.isEmpty_map, Function.comp_def, ← Clause.toFragment_eq_written]

namespace Condition

/-- The rendering of a built tree, if the clause of each condition is what its items write. -/
theorem toFragment_eq_written_of_gives {s : Connective} {cs : List Condition} {t : Tree}
    (ht : (Tree.ofConditions s cs).outcome = .ok t)
    (h : ∀ c ∈ cs, ∀ clause, c.Gives s clause → clause.toFragment = written (c.items s)) :
    t.toFragment = written (itemsOf s cs) := by
  obtain ⟨rfl, hall⟩ := Tree.ofConditions_eq_ok_iff.mp ht
  have hmap : t.clauses.map Clause.toFragment = (itemsEach t.connective cs).map written := by
    -- The induction is on the pairing of conditions and clauses, in which the tree must not stand any more.
    generalize t.clauses = clauses at hall
    clear ht
    induction hall with
    | nil => rfl
    | @cons c clause cs clauses hg _ ih =>
      rw [List.map_cons, itemsEach, List.map_cons, h c List.mem_cons_self clause hg,
        ih fun c hc => h c (List.mem_cons_of_mem _ hc)]
  have hnil : t.clauses.isEmpty = (itemsEach t.connective cs).isEmpty := by
    rw [← List.isEmpty_map (f := Clause.toFragment), hmap, List.isEmpty_map]
  rw [itemsOf, written_grouped, Tree.toFragment, hmap, hnil]

/-- The clause that a condition becomes is what the items of the condition write, at every depth. -/
theorem Gives.toFragment_eq_written {c : Condition} {parent : Connective} {clause : Clause}
    (h : c.Gives parent clause) : clause.toFragment = written (c.items parent) := by
  induction c generalizing parent clause with
  | field name test =>
    obtain ⟨-, -, rfl⟩ := gives_field.mp h
    exact Test.fragment_eq_written name test
  | group connective children ih =>
    obtain ⟨-, nested, hn, rfl⟩ := gives_group.mp h
    exact toFragment_eq_written_of_gives hn fun c hc _ hg => ih c hc hg
  | raw piece =>
    cases gives_raw.mp h
    exact (written_statement piece).symm
  | tree t =>
    cases gives_tree.mp h
    exact Tree.toFragment_eq_written t

end Condition

/-- Building and rendering in two stages gives the texts of the items of the conditions and the values of their
    slots and statements, in one order. -/
theorem Tree.build_eq_items {s : Connective} {cs : List Condition} {t : Tree}
    (ht : (Tree.ofConditions s cs).outcome = .ok t) :
    t.build.value.sql = String.join ((Condition.itemsOf s cs).map Item.sql) ∧
      t.build.value.params = (Condition.itemsOf s cs).flatMap Item.values := by
  have h : t.toFragment = written (Condition.itemsOf s cs) :=
    Condition.toFragment_eq_written_of_gives ht fun _ _ _ hg => hg.toFragment_eq_written
  rw [Tree.value_build, h]
  exact ⟨rfl, rfl⟩

theorem Tree.build_eq_items_nested :
    ∃ cs t, cs = [
        .field "a" (.oneOf .notIn [.int 1, .null, .int 1]),
        .group none [
          .field "b" (.compare (some "!") .null),
          .raw ⟨"x > ?", [.int 2]⟩,
          .group (some .or) [.field "c" (.between (.int 3) (.int 4)), .field "d" (.like (.text "%"))]],
        .tree ⟨.and, [.field "e" (.compare none (.bool true)), .fragment ⟨"(f = ?)", [.int 5]⟩]⟩,
        .field "g" (.equalsQuery ⟨"SELECT ?", [.int 6]⟩)] ∧
      (Tree.ofConditions .or cs).outcome = .ok t ∧
      t.build.value.sql = String.join ((Condition.itemsOf .or cs).map Item.sql) ∧
      t.build.value.params = (Condition.itemsOf .or cs).flatMap Item.values :=
  ⟨_, _, rfl, rfl, build_eq_items rfl⟩

end Criteria
