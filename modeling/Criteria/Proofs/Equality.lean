import Criteria.Proofs.Pieces
import Criteria.Proofs.Surroundings
import Criteria.Proofs.Vocabulary

/-! Spellings of equality. A field equals a value if its content is the value, a list that leads to the value, or a
    modifier that stands for equality with either. The reader takes a branch of its own for each of them and keeps the
    token that it finds, and only when the operator is written do they come to the same. -/

namespace Criteria

/-- A token that stands for equality: a blank one, the sign of equality, or a number. -/
def Operator.EqualityToken (token : String) : Prop :=
  Text.trim token = "" ∨ Text.trim token = "=" ∨ isNumericToken (Text.trim token) = true

theorem Operator.ofToken_of_equalityToken {token : String} (h : EqualityToken token) : ofToken (some token) = "=" := by
  rw [← ofToken_trim]
  rcases h with h | h | h
  · rw [h]
    rfl
  · rw [h]
    decide +kernel
  · exact ofToken_of_isNumericToken h

theorem Operator.keyword_of_isNumericToken {token : String} (h : isNumericToken token = true) : Text.keyword token = token := by
  have htrim : Text.trim token = token := by
    rw [← String.toList_inj, Text.toList_trim]
    exact Text.trimmed_of_no_blank (isBlank_of_mem_isNumeric h)
  rw [Text.keyword, htrim, toUpper_of_isNumericToken h]

theorem Modifier.ofToken_of_isNumericToken {token : String} (h : Operator.isNumericToken token = true) :
    ofToken token = .comparison := by
  have hne : ∀ {word : String}, Operator.isNumericToken word = false → Text.keyword token ≠ word := by
    rintro _ hword rfl
    rw [Operator.keyword_of_isNumericToken h, h] at hword
    cases hword
  have hrelation : ∀ relation : SetRelation, Text.keyword token ≠ relation.words := by
    intro relation
    refine hne ?_
    cases relation <;> decide
  -- The words of a set relation with a negation hold a blank, and a numeric token has none.
  have hblank : (Text.keyword token).toList.all (fun c => !Text.isBlank c) = true := by
    rw [Operator.keyword_of_isNumericToken h, List.all_eq_true]
    intro c hc
    rw [Operator.isBlank_of_mem_isNumeric h c hc]
    rfl
  exact ofToken_of_other (hne (by decide)) (SetRelation.phrase_ne_words rfl (hne (by decide)) hblank hrelation)
    (hne (by decide))

theorem Modifier.ofToken_of_equalityToken {token : String} (h : Operator.EqualityToken token) :
    ofToken token = .comparison := by
  rw [← ofToken_trim]
  rcases h with h | h | h
  · rw [h]
    decide +kernel
  · rw [h]
    decide +kernel
  · exact ofToken_of_isNumericToken h

namespace Document

/-- Taking first items leads from a document to the leaf. -/
inductive LeadsTo (leaf : Document) : Document → Prop
  | self : LeadsTo leaf leaf
  | first {item : Document} {rest : List Document} : LeadsTo leaf item → LeadsTo leaf (.array (item :: rest))

/-- The contents by which a field is said to equal the leaf. -/
inductive SpellsEquality (leaf : Document) : Document → Prop
  | scalar : SpellsEquality leaf leaf
  | modifier {token : String} {operand : Document} : Operator.EqualityToken token → LeadsTo leaf operand →
      SpellsEquality leaf (.object [(token, operand)])
  | list {items : List Document} : LeadsTo leaf (.array items) →
      (∀ token operand, items = [.string token, operand] → ¬ListModifier token) → SpellsEquality leaf (.array items)

variable {leaf d : Document} {v : Value} {field : String}

theorem LeadsTo.firstLeaf?_congr (h : LeadsTo leaf d) : d.firstLeaf? = leaf.firstLeaf? := by
  induction h with
  | self => rfl
  | first _ ih => rw [firstLeaf?, ih]

theorem LeadsTo.firstLeaf?_eq (h : LeadsTo leaf d) (hleaf : leaf.toValue? = some v) : d.firstLeaf? = some leaf :=
  h.firstLeaf?_congr.trans (firstLeaf?_of_toValue? hleaf)

theorem LeadsTo.scalar_eq (h : LeadsTo leaf d) (hleaf : leaf.toValue? = some v) (field modifier : String) :
    scalar field modifier d = .ok v :=
  scalar_of_firstLeaf? (h.firstLeaf?_eq hleaf) hleaf field modifier

/-- Each spelling is read as a comparison whose token stands for equality. -/
theorem SpellsEquality.fieldTest_eq (h : SpellsEquality leaf d) (hleaf : leaf.toValue? = some v) (field : String) :
    ∃ token, Operator.ofToken token = "=" ∧ fieldTest field d = .ok (.compare token v) := by
  cases h with
  | scalar => exact ⟨none, rfl, fieldTest_of_toValue? hleaf field⟩
  | @modifier token operand htoken hoperand =>
    refine ⟨some token, Operator.ofToken_of_equalityToken htoken, ?_⟩
    rw [fieldTest, modified, Modifier.ofToken_of_equalityToken htoken, hoperand.scalar_eq hleaf]
    rfl
  | @list items hitems hdata =>
    refine ⟨some "0", by decide, ?_⟩
    have hlead : ∀ token operand, items = [.string token, operand] → Modifier.leadsList token = false :=
      fun token operand heq => Bool.eq_false_iff.mpr fun hlead => hdata token operand heq (Modifier.leadsList_iff.mp hlead)
    -- A list of data is read under the token 0, which is numeric and so stands for equality.
    rw [fieldTest_of_data hlead, positional, hitems.scalar_eq hleaf]
    rfl

end Document

/-! ### What is written -/

/-- Equality of a field with a value, which is a test for null if the value is null. -/
def Fragment.equality (field : String) (v : Value) : Fragment :=
  if v.isNull then ⟨field ++ " IS NULL", []⟩ else ⟨field ++ " = ?", [v]⟩

theorem Test.fragment_of_equality {token : Option String} (h : Operator.ofToken token = "=") (field : String) (v : Value) :
    (Test.compare token v).fragment field = .equality field v := by
  apply Fragment.ext
  · cases v <;> simp [fragment, Operator.resolve, h, Operator.againstNull, Fragment.equality, Value.isNull,
      Dialect.sql_valueFragment, Dialect.slot, Dialect.generic, String.append_assoc]
  · cases v <;> rfl

/-- The text and the values of a tree, and the text that is logged for it. -/
def Tree.shown (t : Tree) : Logged Fragment × Logged String := (t.build, t.debugSql)

theorem Tree.shown_congr {t u : Tree} (h : t.toFragment = u.toFragment) : t.shown = u.shown := by
  simp only [shown, debugSql, build, compile, h]

namespace Document

variable {leaf a : Document} {v : Value} {key : String}

/-- Each spelling is accepted, and written as the equality wherever its condition stands. -/
theorem SpellsEquality.entryCondition_eq (h : SpellsEquality leaf a) (hleaf : leaf.toValue? = some v)
    (hblank : Text.trim key ≠ "") (hkey : ¬GroupKey key) :
    ∃ c, entryCondition (key, a) = .ok c ∧
      ∀ parent, Condition.AgreeIn Clause.toFragment parent c (.raw (.equality key v)) := by
  obtain ⟨token, htoken, htest⟩ := h.fieldTest_eq hleaf key
  have hname : Text.isBlankText key = false := Text.isBlankText_eq_false_iff.mpr hblank
  refine ⟨.field key (.compare token v), entryCondition_of_fieldTest hblank hkey htest, fun parent position => ?_⟩
  rw [Condition.outcome_field, hname, Condition.outcome_raw]
  exact congrArg Except.ok (Test.fragment_of_equality htoken key v)

theorem SpellsEquality.shown_fill (h : SpellsEquality leaf a) (hleaf : leaf.toValue? = some v)
    (hblank : Text.trim key ≠ "") (hkey : ¬GroupKey key) (K : Surroundings) :
    (Tree.ofDocument (K.fill (key, a))).outcome.map Tree.shown =
      (K.conditions >>= fun surroundings =>
        (Tree.ofConditions .and (surroundings.fill (.raw (.equality key v)))).outcome).map Tree.shown := by
  obtain ⟨c, hc, hagree⟩ := h.entryCondition_eq hleaf hblank hkey
  rw [Tree.outcome_ofDocument_fill hc]
  cases K.conditions with
  | error fault => rfl
  | ok surroundings =>
    -- The conditions differ in their tokens, so the trees agree in what is written and not in themselves.
    have hclauses := (hagree (surroundings.connectiveAt .and)).outcome_fill (g := id) (fun _ => rfl)
    exact Outcome.map_congr (Tree.toFragment_ofConditions_congr (g := id) (fun _ => rfl) hclauses) fun _ _ =>
      Tree.shown_congr

end Document

open Document in
/-- A field that equals a value may be said so by any spelling, at any place of any document: the document is refused for
    the same fault, or its tree is written the same, with the equality at that place. By itself each spelling is
    accepted. -/
theorem Tree.ofDocument_respelled {leaf a b : Document} {v : Value} {key : String} (hleaf : leaf.toValue? = some v)
    (hblank : Text.trim key ≠ "") (hkey : ¬GroupKey key) (ha : SpellsEquality leaf a) (hb : SpellsEquality leaf b) :
    (∃ t, (ofDocument (.object [(key, a)])).outcome = .ok t ∧
      t.build.value = if v.isNull then ⟨"(" ++ key ++ " IS NULL)", []⟩ else ⟨"(" ++ key ++ " = ?)", [v]⟩) ∧
    ∀ K : Surroundings,
      (ofDocument (K.fill (key, a))).outcome.map shown = (ofDocument (K.fill (key, b))).outcome.map shown ∧
      (ofDocument (K.fill (key, a))).outcome.map shown =
        (K.conditions >>= fun surroundings =>
          (ofConditions .and (surroundings.fill (.raw (.equality key v)))).outcome).map shown := by
  refine ⟨?_, fun K => ⟨?_, ha.shown_fill hleaf hblank hkey K⟩⟩
  · have hshown := ha.shown_fill hleaf hblank hkey (.entry [] [])
    obtain ⟨t, ht, hbuild⟩ := Outcome.map_eq_ok.mp hshown
    have hvalue : t.build.value = .ofText "(" ++ .equality key v ++ .ofText ")" :=
      congrArg (fun pair => pair.1.value) hbuild
    refine ⟨t, ht, ?_⟩
    rw [hvalue, Fragment.equality]
    split
    · exact Fragment.ext (by simp [String.append_assoc]) rfl
    · exact Fragment.ext (by simp [String.append_assoc]) rfl
  · rw [ha.shown_fill hleaf hblank hkey, hb.shown_fill hleaf hblank hkey]

open Document in
theorem Tree.ofDocument_respelled_null :
    ∃ K a b t, K = Surroundings.item [.object [("x", .string "y")]]
        (.member [] " or " (some .or) (by decide +kernel)
          (.entry [("a", .null)] [("c", .object [("in", .array [.bool true])])]) []) [] ∧
      a = Document.array [.null, .bool true] ∧
      b = .object [(" 07. ", .array [.array [.null, .object []], .string "z"])] ∧
      SpellsEquality .null a ∧ SpellsEquality .null b ∧
      (ofDocument (K.fill ("b", a))).outcome.map shown = (ofDocument (K.fill ("b", b))).outcome.map shown ∧
      t = Tree.mk .and [
        .fragment ⟨"(x = ?)", [.text "y"]⟩,
        .fragment ⟨"((a IS NULL OR b IS NULL OR c IN (?)))", [.bool true]⟩] ∧
      (ofDocument (K.fill ("b", b))).outcome.map shown = .ok t.shown := by
  have ha : SpellsEquality .null (.array [.null, .bool true]) :=
    .list (.first .self) (by rintro token operand ⟨⟩)
  have hb : SpellsEquality .null (.object [(" 07. ", .array [.array [.null, .object []], .string "z"])]) :=
    .modifier (.inr (.inr (by decide +kernel))) (.first (.first .self))
  have hblank : Text.trim "b" ≠ "" := by decide +kernel
  have hkey : ¬GroupKey "b" := by decide +kernel
  have hfill := (ofDocument_respelled rfl hblank hkey ha hb).2
  have hplain := (ofDocument_respelled rfl hblank hkey hb .scalar).2
  refine ⟨_, _, _, _, rfl, rfl, rfl, ha, hb, (hfill _).1, rfl,
    (hplain _).1.trans (Outcome.map_eq_ok.mpr ⟨_, ?_, rfl⟩)⟩
  decide +kernel

end Criteria
