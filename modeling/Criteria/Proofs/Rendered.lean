import Criteria.Proofs.Building
import Criteria.Proofs.Pieces
import Criteria.Statement

/-! What every rendered tree keeps. The texts that the author of a condition supplies are its fields, its operator
    tokens and its statements, nested at any depth and, through embedded trees and snapshots of trees, built in
    turn. Whatever holds of pieces of those texts, of the words between them and of placeholders, and passes from
    two pieces to the one written from both, holds of the whole rendering. -/

namespace Criteria

namespace Test

/-- The operator token of a comparison. -/
def token? : Test → Option String
  | .compare operator _ => operator
  | _ => none

/-- The raw expression or sub-statement of a test. -/
def statement? : Test → Option Fragment
  | .inQuery _ query => some query
  | .equalsRaw expression => some expression
  | .equalsQuery query => some query
  | _ => none

end Test

mutual

/-- A condition of fields and operator tokens with `P` and of statements with `Q`, nested ones included. -/
inductive Condition.MadeOf (P : String → Prop) (Q : Fragment → Prop) : Condition → Prop
  | field {name : String} {test : Test} : P name → (∀ token ∈ test.token?, P token) →
      (∀ piece ∈ test.statement?, Fragment.MadeOf P Q piece) → Condition.MadeOf P Q (.field name test)
  | group {connective : Option Connective} {children : List Condition} :
      (∀ c ∈ children, Condition.MadeOf P Q c) → Condition.MadeOf P Q (.group connective children)
  | raw {piece : Fragment} : Fragment.MadeOf P Q piece → Condition.MadeOf P Q (.raw piece)
  | tree {t : Tree} : Tree.MadeOf P Q t → Condition.MadeOf P Q (.tree t)

/-- A tree that was built from such conditions. -/
inductive Tree.MadeOf (P : String → Prop) (Q : Fragment → Prop) : Tree → Prop
  | built {s : Connective} {cs : List Condition} {t : Tree} : (∀ c ∈ cs, Condition.MadeOf P Q c) →
      (Tree.ofConditions s cs).outcome = .ok t → Tree.MadeOf P Q t

/-- A statement with `Q`, or the snapshot of such a tree. -/
inductive Fragment.MadeOf (P : String → Prop) (Q : Fragment → Prop) : Fragment → Prop
  | given {piece : Fragment} : Q piece → Fragment.MadeOf P Q piece
  | snapshot {t : Tree} : Tree.MadeOf P Q t → Fragment.MadeOf P Q (Statement.snapshot t).value

end

/-! ### Properties of renderings -/

/-- A property of texts that a token passes on to its operator: it is kept when blanks are taken off and letters are
    raised, and the words that stand for a token have it. -/
structure Operator.Kept (P : String → Prop) : Prop where
  trim : ∀ s, P s → P (Text.trim s)
  toUpper : ∀ s, P s → P s.toUpper
  equal : P "="
  unequal : P "<>"
  identical : P "IS"
  distinct : P "IS NOT"

namespace Operator.Kept
variable {P : String → Prop} (K : Operator.Kept P)
include K

theorem againstNull {operator : String} (h : P operator) : P (againstNull operator) := by
  unfold Operator.againstNull
  split
  · exact K.identical
  · exact K.distinct
  · exact K.distinct
  · exact h

theorem ofToken {token : Option String} (h : ∀ t ∈ token, P t) : P (ofToken token) := by
  unfold Operator.ofToken
  split
  · exact K.equal
  · rename_i t
    have ht : P (Text.trim t) := K.trim t (h t rfl)
    split
    · exact K.equal
    · exact K.unequal
    · split
      · exact K.equal
      · exact K.toUpper _ ht

/-- Whatever the value is, the operator written for it has what its token has. -/
theorem resolve (v : Value) {token : Option String} (h : ∀ t ∈ token, P t) : P (resolve v token) := by
  unfold Operator.resolve
  split
  · exact K.againstNull (K.ofToken h)
  · exact K.ofToken h

end Operator.Kept

/-- The characters of the words that are written around fields and values. -/
def Text.isPlain (c : Char) : Bool := c.isAlphanum || c = ' ' || c = ',' || c = '='

/-- A property of pieces that rendering keeps. -/
structure Fragment.Kept (P : String → Prop) (Q I : Fragment → Prop) : Prop where
  text : ∀ s, P s → I (ofText s)
  operator : ∀ v token, (∀ t ∈ token, P t) → I (ofText (Operator.resolve v token))
  plain : ∀ s : String, s.toList.all Text.isPlain = true → I (ofText s)
  placeholder : ∀ v, I ⟨"?", [v]⟩
  given : ∀ piece, Q piece → I piece
  append : ∀ a b, I a → I b → I (a ++ b)
  parentheses : ∀ a, I a → I (ofText "(" ++ a ++ ofText ")")

namespace Fragment.Kept
variable {P : String → Prop} {Q I : Fragment → Prop} (K : Fragment.Kept P Q I)
include K

/-- A fixed text. -/
theorem word (word : String) (hword : word.toList.all Text.isPlain = true := by decide) : I (ofText word) :=
  K.plain word hword

/-- A field and the fixed text after it. -/
theorem field_word {name : String} (hname : P name) (word : String)
    (hword : word.toList.all Text.isPlain = true := by decide) : I (ofText (name ++ word)) :=
  K.append (ofText name) (ofText word) (K.text name hname) (K.plain word hword)

theorem value (v : Value) : I (Dialect.generic.valueFragment v) := by
  by_cases hv : v.isNull = true
  · rw [Value.isNull_iff.mp hv]
    exact K.word "NULL"
  · rw [Dialect.valueFragment_of_isNull _ (Bool.eq_false_iff.mpr hv)]
    exact K.placeholder v

theorem set (values : List Value) : I (Dialect.generic.setFragment values) := by
  rw [Dialect.setFragment_eq_join]
  refine join_induction (K.word "") K.append (K.word ", ") fun piece hp => ?_
  obtain ⟨v, -, rfl⟩ := List.mem_map.mp hp
  exact K.value v

theorem words (relation : SetRelation) : I (ofText relation.words) := by
  cases relation <;> exact K.word _

theorem inSet {name : String} (hname : P name) (relation : SetRelation) {piece : Fragment} (h : I piece) :
    I (ofText (name ++ " " ++ relation.words ++ " (") ++ piece ++ ofText ")") := by
  -- The text is written in one piece; the pieces that are known to have the property are its factors.
  have heq : ofText (name ++ " " ++ relation.words ++ " (") ++ piece ++ ofText ")" =
      ofText (name ++ " ") ++ ofText relation.words ++ ofText " " ++ (ofText "(" ++ piece ++ ofText ")") := by
    ext1
    · simp only [sql_append, sql_ofText, String.append_assoc]
      rfl
    · simp
  rw [heq]
  have hrelation := K.append _ _ (K.field_word hname " ") (K.words relation)
  have hblank := K.append _ _ hrelation (K.word " ")
  exact K.append _ _ hblank (K.parentheses _ h)

theorem test {name : String} {test : Test} (hname : P name) (htoken : ∀ token ∈ test.token?, P token)
    (hstatement : ∀ piece ∈ test.statement?, I piece) : I (test.fragment name) := by
  cases test with
  | compare operator v =>
    -- The parts are appended from the left, as the text is written.
    have hop := K.append _ _ (K.field_word hname " ") (K.operator v operator htoken)
    have hblank := K.append _ _ hop (K.word " ")
    exact K.append _ _ hblank (K.value v)
  | between low high =>
    have hlow := K.append _ _ (K.field_word hname " BETWEEN ") (K.value low)
    have hand := K.append _ _ hlow (K.word " AND ")
    exact K.append _ _ hand (K.value high)
  | oneOf relation values => exact K.inSet hname relation (K.set values)
  | inQuery relation query => exact K.inSet hname relation (hstatement query rfl)
  | like pattern => exact K.append _ _ (K.field_word hname " LIKE ") (K.value pattern)
  | equalsRaw expression =>
    exact K.append _ _ (K.field_word hname " = ") (hstatement expression rfl)
  | equalsQuery query =>
    have heq : Test.fragment name (.equalsQuery query) =
        ofText (name ++ " = ") ++ (ofText "(" ++ query ++ ofText ")") := by
      ext1
      · simp only [Test.fragment, sql_append, sql_ofText, String.append_assoc]
        rfl
      · simp [Test.fragment]
    rw [heq]
    exact K.append _ _ (K.field_word hname " = ") (K.parentheses _ (hstatement query rfl))

theorem separator (s : Connective) : I (ofText (" " ++ s.word ++ " ")) := by
  cases s <;> exact K.word _

/-- A tree stands between parentheses, and what is between them keeps what its clauses keep. -/
theorem enclosed {t : Tree} (h : ∀ clause ∈ t.clauses, I clause.toFragment) :
    ∃ inner, t.toFragment = ofText "(" ++ inner ++ ofText ")" ∧ I inner := by
  rw [Tree.toFragment]
  split
  · exact ⟨ofText "1=1", rfl, K.word "1=1"⟩
  · refine ⟨_, rfl, join_induction (K.word "") K.append (K.separator t.connective) fun piece hp => ?_⟩
    obtain ⟨clause, hclause, rfl⟩ := List.mem_map.mp hp
    exact h clause hclause

theorem tree {t : Tree} (h : ∀ clause ∈ t.clauses, I clause.toFragment) : I t.toFragment := by
  obtain ⟨inner, ht, hinner⟩ := K.enclosed h
  rw [ht]
  exact K.parentheses inner hinner

end Fragment.Kept

section
variable {P : String → Prop} {Q I : Fragment → Prop}

/-- A tree built from conditions whose clauses have `I`. -/
theorem Fragment.Kept.built (K : Fragment.Kept P Q I) {s : Connective} {cs : List Condition} {t : Tree}
    (ht : (Tree.ofConditions s cs).outcome = .ok t)
    (h : ∀ c ∈ cs, ∀ clause, c.Gives s clause → I clause.toFragment) : I t.toFragment := by
  refine K.tree fun clause hclause => ?_
  obtain ⟨c, hc, hg⟩ := Condition.exists_gives (Tree.ofConditions_eq_ok_iff.mp ht).2 hclause
  exact h c hc clause hg

mutual

theorem Condition.MadeOf.kept (K : Fragment.Kept P Q I) {parent : Connective} {c : Condition} {clause : Clause} :
    c.MadeOf P Q → c.Gives parent clause → I clause.toFragment
  | .field hname htoken hstatement, hg => by
    rw [(Condition.gives_field.mp hg).2.2]
    exact K.test hname htoken fun piece hp => (hstatement piece hp).kept K
  | .group hchildren, hg => by
    obtain ⟨nested, hn, hclause⟩ := (Condition.gives_group.mp hg).2
    rw [hclause]
    -- The children are asked for their own clauses under the connective of the group.
    exact K.built hn fun c hc clause hclause => (hchildren c hc).kept K hclause
  | .raw hpiece, hg => by
    rw [Condition.gives_raw.mp hg]
    exact hpiece.kept K
  | .tree ht, hg => by
    rw [Condition.gives_tree.mp hg]
    exact ht.kept K

theorem Tree.MadeOf.kept (K : Fragment.Kept P Q I) {t : Tree} : t.MadeOf P Q → I t.toFragment
  | .built hcs ht => K.built ht fun c hc _ hclause => (hcs c hc).kept K hclause

theorem Fragment.MadeOf.kept (K : Fragment.Kept P Q I) {piece : Fragment} : piece.MadeOf P Q → I piece
  | .given hq => K.given piece hq
  | .snapshot ht => ht.kept K

end

end
end Criteria
