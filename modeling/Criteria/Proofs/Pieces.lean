import Criteria.Tree

/-! Joined pieces of SQL. The text of joined pieces is their texts with the separator in between, and their values
    are put one after the other. A set is written as its distinct members would be one by one, with commas. -/

namespace Criteria

attribute [ext] Fragment

namespace Fragment

theorem join_cons_cons (separator : String) (a b : Fragment) (rest : List Fragment) :
    join separator (a :: b :: rest) = a ++ ofText separator ++ join separator (b :: rest) := rfl

theorem sql_join (separator : String) (pieces : List Fragment) :
    (join separator pieces).sql = separator.intercalate (pieces.map (·.sql)) := by
  induction pieces with
  | nil => rfl
  | cons a rest ih =>
    cases rest with
    | nil => simp [join]
    | cons b rest =>
      rw [join_cons_cons, sql_append, sql_append, ih]
      simp [String.intercalate_cons_cons]

theorem params_join (separator : String) (pieces : List Fragment) :
    (join separator pieces).params = pieces.flatMap (·.params) := by
  induction pieces with
  | nil => rfl
  | cons a rest ih =>
    cases rest with
    | nil => simp [join]
    | cons b rest =>
      rw [join_cons_cons, params_append, params_append, ih]
      simp

/-- What holds of pieces and separator, and of two texts written one after the other, holds of joined pieces. -/
theorem join_induction {P : Fragment → Prop} {separator : String} (nil : P (ofText ""))
    (append : ∀ a b, P a → P b → P (a ++ b)) (hsep : P (ofText separator)) {pieces : List Fragment}
    (h : ∀ piece ∈ pieces, P piece) : P (join separator pieces) := by
  induction pieces with
  | nil => exact nil
  | cons a rest ih =>
    have ha : P a := h a List.mem_cons_self
    cases rest with
    | nil => exact ha
    | cons b rest =>
      rw [join_cons_cons]
      exact append _ _ (append _ _ ha hsep) (ih fun piece hp => h piece (List.mem_cons_of_mem a hp))

end Fragment

namespace Dialect
variable (d : Dialect)

theorem sql_valueFragment (v : Value) : (d.valueFragment v).sql = (d.slot v).token := rfl

theorem params_valueFragment (v : Value) : (d.valueFragment v).params = if v.isNull then [] else [v] := by
  cases v <;> rfl

theorem valueFragment_of_isNull {v : Value} (h : v.isNull = false) : d.valueFragment v = ⟨d.placeholder, [v]⟩ := by
  cases v with
  | null => cases h
  | _ => rfl

/-- The values bound for a list are those bound for its members. -/
theorem bound_slots (values : List Value) :
    ((values.zip (values.map d.slot)).filter (·.2.binds)).map (·.1) =
      values.flatMap fun v => (d.valueFragment v).params := by
  induction values with
  | nil => rfl
  | cons v values ih =>
    rw [List.map_cons, List.zip_cons_cons, List.flatMap_cons, ← ih, params_valueFragment]
    cases v <;> rfl

theorem setFragment_eq_join (values : List Value) :
    d.setFragment values = .join ", " ((Value.distinct values).map d.valueFragment) := by
  apply Fragment.ext
  · rw [Fragment.sql_join, List.map_map]
    simp [setFragment, slots, Function.comp_def, sql_valueFragment]
  · rw [Fragment.params_join, List.flatMap_map, ← bound_slots]
    rfl

end Dialect

/-- Texts between parentheses with the connective between each two, or a tautology if there are none. -/
def Connective.enclose (s : Connective) (texts : List String) : String :=
  if texts.isEmpty then "(1=1)" else "(" ++ (" " ++ s.word ++ " ").intercalate texts ++ ")"

theorem Connective.enclose_of_ne_nil {s : Connective} {texts : List String} (h : texts ≠ []) :
    s.enclose texts = "(" ++ (" " ++ s.word ++ " ").intercalate texts ++ ")" := by
  rw [enclose, if_neg (by simpa using h)]

theorem Tree.sql_toFragment (t : Tree) :
    t.toFragment.sql = t.connective.enclose (t.clauses.map (·.toFragment.sql)) := by
  rw [toFragment, Connective.enclose, List.isEmpty_map]
  split
  · rfl
  · rw [Fragment.sql_append, Fragment.sql_append, Fragment.sql_join, List.map_map]
    rfl

theorem Tree.params_toFragment (t : Tree) : t.toFragment.params = t.clauses.flatMap (·.toFragment.params) := by
  rw [toFragment]
  split
  · rename_i hempty
    rw [List.isEmpty_iff.mp hempty]
    rfl
  · simp [Fragment.params_join, List.flatMap_map]

end Criteria
