import Criteria.Connective
import Criteria.Proofs.Vocabulary
import Criteria.SetRelation

/-! Outlines of criteria, and their texts. An outline says which fields are tested how, which values are null, and how
    the tests are grouped. No text of an outline begins the text of another one, so a text is the text of one outline
    alone, whatever follows it. -/

namespace Criteria

/-- Whether the character may stand in a plain name. -/
def isNameChar (c : Char) : Bool := c.isAlphanum || c = '_' || c = '.'

/-- A plain name of a field. -/
def Identifier : Type := {name : String // name ≠ "" ∧ name.toList.all isNameChar = true}

/-- An operator that numbers and known comparison operators are written as. -/
def Comparator : Type := {operator : String // operator ∈ Operator.vocabulary}

/-- What a test shows of itself. Of each value it shows whether it is null. -/
inductive Test.Form where
  | comparison (operator : Comparator) (null : Bool)
  | range (low high : Bool)
  | set (relation : SetRelation) (nulls : List Bool)
  | pattern (null : Bool)

/-- What criteria show of themselves. The connective of a group with a single member does not show. -/
inductive Outline where
  | tautology
  | test (field : Identifier) (form : Test.Form)
  | single (member : Outline)
  | joined (s : Connective) (first second : Outline) (rest : List Outline)

namespace Outline

/-- The outline of a list, from those of its members. -/
def ofList (s : Connective) : List Outline → Outline
  | [] => .tautology
  | [member] => .single member
  | first :: second :: rest => .joined s first second rest

/-! ### Texts -/

/-- What is written for a value. -/
def slotChars (null : Bool) : List Char := if null then "NULL".toList else ['?']

/-- What is written between two members of a group. -/
def separatorChars (s : Connective) : List Char := (" " ++ s.word ++ " ").toList

/-- The members of a list after the first one, each after a separator, and the closing parenthesis. -/
def closedAfter (separator : List Char) (members : List (List Char)) : List Char :=
  members.flatMap (separator ++ ·) ++ [')']

/-- What is written for the members of a set, and the closing parenthesis. -/
def setChars : List Bool → List Char
  | [] => [')']
  | null :: rest => slotChars null ++ closedAfter ", ".toList (rest.map slotChars)

end Outline

open Outline

/-- What is written for a test behind its field and a blank. -/
def Test.Form.chars : Test.Form → List Char
  | .comparison operator null => operator.val.toList ++ ' ' :: slotChars null
  | .range low high => "BETWEEN ".toList ++ (slotChars low ++ (" AND ".toList ++ slotChars high))
  | .set relation nulls => (relation.words ++ " (").toList ++ setChars nulls
  | .pattern null => "LIKE ".toList ++ slotChars null

namespace Test.Form

theorem chars_comparison (operator : Comparator) (null : Bool) :
    (comparison operator null).chars = operator.val.toList ++ ' ' :: slotChars null := rfl

theorem chars_range (low high : Bool) :
    (range low high).chars = "BETWEEN ".toList ++ (slotChars low ++ (" AND ".toList ++ slotChars high)) := rfl

theorem chars_set (relation : SetRelation) (nulls : List Bool) :
    (set relation nulls).chars = (relation.words ++ " (").toList ++ setChars nulls := rfl

theorem chars_pattern (null : Bool) : (pattern null).chars = "LIKE ".toList ++ slotChars null := rfl

end Test.Form

namespace Outline

mutual

/-- What is written for an outline. -/
def chars : Outline → List Char
  | .tautology => "(1=1)".toList
  | .test field form => field.val.toList ++ ' ' :: form.chars
  | .single member => '(' :: (member.chars ++ [')'])
  | .joined s first second rest =>
    '(' :: (first.chars ++ closedAfter (separatorChars s) (second.chars :: charsEach rest))

/-- What is written for each outline of a list. -/
def charsEach : List Outline → List (List Char)
  | [] => []
  | member :: rest => member.chars :: charsEach rest

end

theorem charsEach_eq_map (members : List Outline) : charsEach members = members.map chars := by
  induction members with
  | nil => rfl
  | cons member rest ih => rw [charsEach, ih, List.map_cons]

/-- What holds of an outline if it holds of its members holds of every outline. -/
@[elab_as_elim, induction_eliminator]
theorem nesting {motive : Outline → Prop} (tautology : motive .tautology)
    (test : ∀ field form, motive (.test field form)) (single : ∀ member, motive member → motive (.single member))
    (joined : ∀ s first second rest, motive first → (∀ member ∈ second :: rest, motive member) →
      motive (.joined s first second rest)) : ∀ o, motive o
  | .tautology => tautology
  | .test field form => test field form
  | .single member => single member (nesting tautology test single joined member)
  | .joined s first second rest =>
    joined s first second rest (nesting tautology test single joined first)
      fun member _ => nesting tautology test single joined member

end Outline

/-! ### Reading words off a text -/

/-- If no word of a list begins another one, the first word of a text is told by the text. -/
theorem eq_of_append_eq {α : Type} {f : α → List Char} {words : List α}
    (h : ∀ a ∈ words, ∀ b ∈ words, f a <+: f b → a = b) {a b : α} (ha : a ∈ words) (hb : b ∈ words) {x y : List Char}
    (hxy : f a ++ x = f b ++ y) : a = b ∧ x = y := by
  have hab : a = b := by
    rcases List.prefix_or_prefix_of_prefix (List.prefix_append (f a) x) (hxy ▸ List.prefix_append (f b) y) with hp | hp
    · exact h a ha b hb hp
    · exact (h b hb a ha hp).symm
  subst hab
  exact ⟨rfl, List.append_cancel_left hxy⟩

namespace Outline
variable {x y : List Char}

/-- A value at the front of a text shows whether it is null. -/
theorem slotChars_append_inj {m n : Bool} (h : slotChars m ++ x = slotChars n ++ y) : m = n ∧ x = y := by
  have hwords : ∀ a ∈ [true, false], ∀ b ∈ [true, false], slotChars a <+: slotChars b → a = b := by decide
  exact eq_of_append_eq hwords (by cases m <;> decide) (by cases n <;> decide) h

/-- A separator at the front of a text shows its connective. -/
theorem separatorChars_append_inj {s s' : Connective} (h : separatorChars s ++ x = separatorChars s' ++ y) :
    s = s' ∧ x = y := by
  have hwords : ∀ a ∈ [Connective.and, .or], ∀ b ∈ [Connective.and, .or],
      separatorChars a <+: separatorChars b → a = b := by decide
  exact eq_of_append_eq hwords (by cases s <;> decide) (by cases s' <;> decide) h

theorem closedAfter_cons (separator text : List Char) (texts : List (List Char)) :
    closedAfter separator (text :: texts) = separator ++ (text ++ closedAfter separator texts) := by
  simp [closedAfter]

/-- Where no member begins another one, members up to the closing parenthesis are told by the text. -/
theorem closedAfter_append_inj {α : Type} {f : α → List Char} {separator : List Char}
    (hsep : ∀ x y, separator ++ x ≠ ')' :: y) {as : List α}
    (hf : ∀ a ∈ as, ∀ b x y, f a ++ x = f b ++ y → a = b ∧ x = y) {bs : List α}
    (h : closedAfter separator (as.map f) ++ x = closedAfter separator (bs.map f) ++ y) : as = bs ∧ x = y := by
  induction as generalizing bs with
  | nil =>
    -- A list that is at its end closes with a parenthesis, and another one goes on with a separator.
    cases bs with
    | nil => exact ⟨rfl, (List.cons.inj h).2⟩
    | cons b bs =>
      rw [List.map_cons, closedAfter_cons, List.append_assoc] at h
      exact absurd h.symm (hsep _ _)
  | cons a as ih =>
    obtain ⟨ha, has⟩ := List.forall_mem_cons.mp hf
    rw [List.map_cons, closedAfter_cons, List.append_assoc] at h
    cases bs with
    | nil => exact absurd h (hsep _ _)
    | cons b bs =>
      rw [List.map_cons, closedAfter_cons] at h
      simp only [List.append_assoc] at h
      -- The separators are the same, then the members, and then what is left.
      obtain ⟨rfl, hrest⟩ := ha b _ _ (List.append_cancel_left h)
      obtain ⟨rfl, hxy⟩ := ih has hrest
      exact ⟨rfl, hxy⟩

/-- A set at the front of a text shows which of its members are null. -/
theorem setChars_append_inj {ms ns : List Bool} (h : setChars ms ++ x = setChars ns ++ y) : ms = ns ∧ x = y := by
  have hslot : ∀ (n : Bool) (x y : List Char), slotChars n ++ x ≠ ')' :: y := by
    intro n x y h
    cases n <;> cases h
  cases ms with
  | nil =>
    cases ns with
    | nil => exact ⟨rfl, (List.cons.inj h).2⟩
    | cons n ns =>
      rw [setChars, setChars, List.append_assoc] at h
      exact absurd h.symm (hslot n _ _)
  | cons m ms =>
    rw [setChars, List.append_assoc] at h
    cases ns with
    | nil => exact absurd h (hslot m _ _)
    | cons n ns =>
      rw [setChars, List.append_assoc] at h
      obtain ⟨rfl, hrest⟩ := slotChars_append_inj h
      have hcomma : ∀ x y, ", ".toList ++ x ≠ ')' :: y := fun x y h => by cases h
      obtain ⟨rfl, hxy⟩ := closedAfter_append_inj hcomma (fun _ _ _ _ _ => slotChars_append_inj) hrest
      exact ⟨rfl, hxy⟩

end Outline

namespace Test.Form
variable {x y : List Char}

/-- What follows the field in a test, as far as the kind of the test goes. -/
inductive Head where
  | comparison (operator : String) (null : Bool)
  | range
  | set (relation : SetRelation)
  | pattern
deriving DecidableEq

/-- What is written for a head. -/
def Head.chars : Head → List Char
  | .comparison operator null => operator.toList ++ ' ' :: slotChars null
  | .range => "BETWEEN ".toList
  | .set relation => (relation.words ++ " (").toList
  | .pattern => "LIKE ".toList

/-- All heads that a test may have. -/
def heads : List Head :=
  Operator.vocabulary.flatMap (fun operator => [.comparison operator true, .comparison operator false]) ++
    [.range, .set .isIn, .set .notIn, .set .any, .set .some, .set .all, .pattern]

/-- No head begins another one: IS and IS NOT are told apart by what follows them. -/
theorem heads_prefix_free : ∀ a ∈ heads, ∀ b ∈ heads, a.chars <+: b.chars → a = b := by decide +kernel

/-- The head of a test. -/
def head : Test.Form → Head
  | .comparison operator null => .comparison operator.val null
  | .range _ _ => .range
  | .set relation _ => .set relation
  | .pattern _ => .pattern

/-- What is written for a test behind its head. -/
def operands : Test.Form → List Char
  | .comparison _ _ => []
  | .range low high => slotChars low ++ (" AND ".toList ++ slotChars high)
  | .set _ nulls => setChars nulls
  | .pattern null => slotChars null

theorem chars_eq_head_append (form : Test.Form) : form.chars = form.head.chars ++ form.operands := by
  cases form with
  | comparison operator null => exact (List.append_nil _).symm
  | _ => rfl

theorem head_mem_heads (form : Test.Form) : form.head ∈ heads := by
  cases form with
  | comparison operator null =>
    refine List.mem_append_left _ (List.mem_flatMap.mpr ⟨operator.val, operator.property, ?_⟩)
    cases null
    · exact List.mem_cons_of_mem _ List.mem_cons_self
    · exact List.mem_cons_self
  | range low high => exact (by decide : Head.range ∈ heads)
  | set relation nulls =>
    have hset : ∀ r : SetRelation, Head.set r ∈ heads := by
      intro r
      cases r <;> decide
    exact hset relation
  | pattern null => exact (by decide : Head.pattern ∈ heads)

/-- A test at the front of a text is told by the text: by its head first, and then by what the head leaves open. -/
theorem chars_append_inj {form form' : Test.Form} (h : form.chars ++ x = form'.chars ++ y) : form = form' ∧ x = y := by
  rw [chars_eq_head_append, chars_eq_head_append, List.append_assoc, List.append_assoc] at h
  obtain ⟨hhead, h⟩ := eq_of_append_eq heads_prefix_free form.head_mem_heads form'.head_mem_heads h
  cases form with
  | comparison operator null =>
    cases form' with
    | comparison operator' null' =>
      obtain ⟨hoperator, hnull⟩ := Head.comparison.inj hhead
      rw [Subtype.ext hoperator, hnull]
      exact ⟨rfl, h⟩
    | _ => cases hhead
  | range low high =>
    cases form' with
    | range low' high' =>
      simp only [operands, List.append_assoc] at h
      obtain ⟨rfl, hand⟩ := slotChars_append_inj h
      obtain ⟨rfl, hxy⟩ := slotChars_append_inj (List.append_cancel_left hand)
      exact ⟨rfl, hxy⟩
    | _ => cases hhead
  | set relation nulls =>
    cases form' with
    | set relation' nulls' =>
      obtain rfl := Head.set.inj hhead
      obtain ⟨rfl, hxy⟩ := setChars_append_inj h
      exact ⟨rfl, hxy⟩
    | _ => cases hhead
  | pattern null =>
    cases form' with
    | pattern null' =>
      obtain ⟨rfl, hxy⟩ := slotChars_append_inj h
      exact ⟨rfl, hxy⟩
    | _ => cases hhead

end Test.Form

/-! ### Whole outlines -/

/-- Two texts before the first character of another kind are one text, and so are those after it. -/
theorem eq_of_append_cons_eq {p : Char → Bool} {a b x y : List Char} {c d : Char} (ha : a.all p = true)
    (hb : b.all p = true) (hc : p c = false) (hd : p d = false) (h : a ++ c :: x = b ++ d :: y) :
    a = b ∧ c = d ∧ x = y := by
  have hfront : ∀ {front : List Char} {e : Char} (rest : List Char), front.all p = true → p e = false →
      (front ++ e :: rest).takeWhile p = front := by
    intro front e rest hall he
    rw [List.takeWhile_append_of_pos (List.all_eq_true.mp hall), List.takeWhile_cons_of_neg (by simp [he]),
      List.append_nil]
  have hab : a = b := by rw [← hfront x ha hc, h, hfront y hb hd]
  subst hab
  obtain ⟨hcd, hxy⟩ := List.cons.inj (List.append_cancel_left h)
  exact ⟨rfl, hcd, hxy⟩

namespace Outline
variable {x y : List Char}

/-- A separator begins with a blank and not with a parenthesis. -/
theorem separatorChars_append_ne (s : Connective) (x y : List Char) : separatorChars s ++ x ≠ ')' :: y := by
  intro h
  cases s <;> cases h

/-- A field and the blank after it. -/
theorem test_chars_append (field : Identifier) (form : Test.Form) (x : List Char) :
    (test field form).chars ++ x = field.val.toList ++ ' ' :: (form.chars ++ x) := by
  rw [chars, List.append_assoc, List.cons_append]

/-- A field does not begin with a parenthesis. -/
theorem test_chars_append_ne_paren (field : Identifier) (form : Test.Form) (x y : List Char) :
    (test field form).chars ++ x ≠ '(' :: y := by
  intro h
  rw [test_chars_append] at h
  obtain ⟨hnil, -⟩ := eq_of_append_cons_eq (b := []) field.property.2 rfl (by decide) (by decide) h
  exact field.property.1 (String.toList_eq_nil_iff.mp hnil)

/-- No outline begins as a tautology goes on after its parenthesis, not even with a field named 1. -/
theorem chars_append_ne_one (o : Outline) (x y : List Char) : o.chars ++ x ≠ '1' :: '=' :: y := by
  intro h
  cases o with
  | test field form =>
    rw [test_chars_append] at h
    obtain ⟨-, hblank, -⟩ := eq_of_append_cons_eq (b := ['1']) field.property.2 (by decide) (by decide) (by decide) h
    cases hblank
  | tautology | single | joined =>
    cases (List.cons.inj h).1

theorem single_chars_append (member : Outline) (x : List Char) :
    (single member).chars ++ x = '(' :: (member.chars ++ ')' :: x) := by
  rw [chars, List.cons_append, List.append_assoc, List.singleton_append]

theorem joined_chars_append (s : Connective) (first second : Outline) (rest : List Outline) (x : List Char) :
    (joined s first second rest).chars ++ x =
      '(' :: (first.chars ++ (closedAfter (separatorChars s) ((second :: rest).map chars) ++ x)) := by
  rw [chars, charsEach_eq_map, List.cons_append, List.append_assoc, List.map_cons]

/-- After the first member of a group the text tells whether more of them follow. -/
theorem closedAfter_append_ne (s : Connective) (second : Outline) (rest : List Outline) (x y : List Char) :
    closedAfter (separatorChars s) ((second :: rest).map chars) ++ x ≠ ')' :: y := by
  rw [List.map_cons, closedAfter_cons, List.append_assoc]
  exact separatorChars_append_ne s _ y

/-- A text begins with the text of one outline at most. -/
theorem chars_append_inj {o o' : Outline} (h : o.chars ++ x = o'.chars ++ y) : o = o' ∧ x = y := by
  induction o generalizing o' x y with
  | tautology =>
    cases o' with
    | tautology => exact ⟨rfl, List.append_cancel_left h⟩
    | test field form => exact absurd h.symm (test_chars_append_ne_paren field form y _)
    | single member =>
      rw [single_chars_append] at h
      exact absurd (List.cons.inj h).2.symm (chars_append_ne_one member _ _)
    | joined s first second rest =>
      rw [joined_chars_append] at h
      exact absurd (List.cons.inj h).2.symm (chars_append_ne_one first _ _)
  | test field form =>
    cases o' with
    | test field' form' =>
      rw [test_chars_append, test_chars_append] at h
      obtain ⟨hfield, -, hform⟩ := eq_of_append_cons_eq field.property.2 field'.property.2 (by decide) (by decide) h
      obtain rfl : field = field' := Subtype.ext (String.toList_inj.mp hfield)
      obtain ⟨rfl, hxy⟩ := Test.Form.chars_append_inj hform
      exact ⟨rfl, hxy⟩
    | tautology | single | joined => exact absurd h (test_chars_append_ne_paren field form x _)
  | single member ih =>
    rw [single_chars_append] at h
    cases o' with
    | tautology => exact absurd (List.cons.inj h).2 (chars_append_ne_one member _ _)
    | test field form => exact absurd h.symm (test_chars_append_ne_paren field form y _)
    | single member' =>
      rw [single_chars_append] at h
      obtain ⟨rfl, hclose⟩ := ih (List.cons.inj h).2
      exact ⟨rfl, (List.cons.inj hclose).2⟩
    | joined s first second rest =>
      rw [joined_chars_append] at h
      obtain ⟨-, hclose⟩ := ih (List.cons.inj h).2
      exact absurd hclose.symm (closedAfter_append_ne s second rest y x)
  | joined s first second rest ihfirst ihrest =>
    rw [joined_chars_append] at h
    cases o' with
    | tautology => exact absurd (List.cons.inj h).2 (chars_append_ne_one first _ _)
    | test field form => exact absurd h.symm (test_chars_append_ne_paren field form y _)
    | single member' =>
      rw [single_chars_append] at h
      obtain ⟨-, hclose⟩ := ihfirst (List.cons.inj h).2
      exact absurd hclose (closedAfter_append_ne s second rest x y)
    | joined s' first' second' rest' =>
      rw [joined_chars_append] at h
      obtain ⟨rfl, hafter⟩ := ihfirst (List.cons.inj h).2
      -- The connective shows before the second member, and the later members are told apart under one connective only.
      have hs : s = s' := by
        simp only [List.map_cons, closedAfter_cons, List.append_assoc] at hafter
        exact (separatorChars_append_inj hafter).1
      subst hs
      obtain ⟨hmembers, hxy⟩ := closedAfter_append_inj (separatorChars_append_ne s)
        (fun member hmember _ _ _ => ihrest member hmember) hafter
      obtain ⟨rfl, rfl⟩ := List.cons.inj hmembers
      exact ⟨rfl, hxy⟩

/-- Outlines of one text are one outline. -/
theorem chars_injective : Function.Injective chars := by
  intro o o' h
  exact (chars_append_inj (congrArg (· ++ []) h)).1

end Outline
end Criteria
