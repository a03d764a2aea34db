import Criteria.Proofs.Entries

/-! Documents for conditions. Conditions that a document can describe at all are described by one whose objects have
    distinct keys: fields are written under their names, groups under keys of their own, and every test in the form
    that the reader takes for it. Reading the document gives the conditions back. -/

namespace Criteria

/-- Whether there is a scalar for the value in documents. -/
def Value.IsScalar : Value → Prop
  | .float x => x.isFinite = true
  | .blob _ => False
  | _ => True

/-- Tests by scalars. The operator of a comparison is any text that asks for no other kind of test. -/
inductive Test.Expressible : Test → Prop
  | equals {v : Value} : v.IsScalar → Test.Expressible (.compare none v)
  | compared {token : String} {v : Value} : Text.keyword token ≠ "BETWEEN" → Text.keyword token ≠ "LIKE" →
      (∀ relation : SetRelation, Text.phrase token ≠ relation.words) → v.IsScalar →
      Test.Expressible (.compare (some token) v)
  | between {low high : Value} : low.IsScalar → high.IsScalar → Test.Expressible (.between low high)
  | oneOf {relation : SetRelation} {values : List Value} : (∀ v ∈ values, v.IsScalar) →
      Test.Expressible (.oneOf relation values)
  | like {pattern : Value} : pattern.IsScalar → Test.Expressible (.like pattern)

namespace Condition

/-- The field that a condition tests, if it is no group. -/
def fieldName? : Condition → Option String
  | .field name _ => some name
  | _ => none

/-- No two tests of a list are on one field, those inside of its groups aside. -/
def DistinctFields (cs : List Condition) : Prop := (cs.filterMap fieldName?).Nodup

instance (cs : List Condition) : Decidable (DistinctFields cs) := inferInstanceAs (Decidable (List.Nodup _))

/-- Such tests on fields that are neither blank nor keys of groups, and groups of them. -/
inductive Expressible : Condition → Prop
  | field {name : String} {test : Test} : Text.trim name ≠ "" → ¬Document.GroupKey name → test.Expressible →
      Expressible (.field name test)
  | group {connective : Option Connective} {children : List Condition} : children ≠ [] →
      (∀ c ∈ children, Expressible c) → DistinctFields children → Expressible (.group connective children)

end Condition

namespace Document

/-- Every object in the document has distinct keys. -/
inductive DistinctKeys : Document → Prop
  | null : DistinctKeys .null
  | bool {b : Bool} : DistinctKeys (.bool b)
  | number {n : Number} : DistinctKeys (.number n)
  | string {s : String} : DistinctKeys (.string s)
  | array {items : List Document} : (∀ item ∈ items, DistinctKeys item) → DistinctKeys (.array items)
  | object {members : List (String × Document)} : (members.map Prod.fst).Nodup →
      (∀ entry ∈ members, DistinctKeys entry.2) → DistinctKeys (.object members)

/-! ### Writing -/

/-- The scalar for a value. There is none for bytes, and none for a double that is no finite number. -/
def ofValue : Value → Document
  | .null => .null
  | .bool b => .bool b
  | .int n => .number (.integer n.toInt n.le_toInt (Int.lt_trans n.toInt_lt (by decide)))
  | .float x => if h : x.isFinite = true then .number (.double x h) else .null
  | .text s => .string s
  | .blob _ => .null

/-- The content of a field for a test on it. -/
def ofTest : Test → Document
  | .compare none v => ofValue v
  | .compare (some token) v => .object [(token, ofValue v)]
  | .between low high => .object [("BETWEEN", .array [ofValue low, ofValue high])]
  | .oneOf relation values => .object [(relation.words, .array (values.map ofValue))]
  | .like pattern => .object [("LIKE", ofValue pattern)]
  | _ => .null

mutual

/-- The member of an object for a condition at a position. -/
def entryOf (position : Nat) : Condition → String × Document
  | .field name test => (name, ofTest test)
  | .group connective children => (groupKey position connective, .object (entriesOf 0 children))
  | .raw _ => ("", .null)
  | .tree _ => ("", .null)

/-- The members of an object for the conditions of a list, the first of which has the given position. -/
def entriesOf (position : Nat) : List Condition → List (String × Document)
  | [] => []
  | c :: cs => entryOf position c :: entriesOf (position + 1) cs

end

theorem distinctKeys_of_toValue? {d : Document} {v : Value} (h : d.toValue? = some v) : d.DistinctKeys := by
  cases d with
  | null => exact .null
  | bool b => exact .bool
  | number n => exact .number
  | string s => exact .string
  | array items => cases h
  | object members => cases h

theorem toValue?_ofValue {v : Value} (hv : v.IsScalar) : (ofValue v).toValue? = some v := by
  cases v with
  | int n => rw [ofValue, toValue?, if_pos n.toInt_lt, Int64.ofInt_toInt]
  | float x =>
    have hx : x.isFinite = true := hv
    rw [ofValue, dif_pos hx, toValue?]
  | blob bytes => exact hv.elim
  | _ => rfl

/-- Values that have scalars are read back from the items of an array. -/
theorem mapM_member_ofValue (values : List Value) (h : ∀ v ∈ values, v.IsScalar) (field modifier : String) :
    (values.map ofValue).mapM (member field modifier) = .ok values := by
  induction values with
  | nil => rfl
  | cons v values ih =>
    obtain ⟨hv, hvalues⟩ := List.forall_mem_cons.mp h
    rw [List.map_cons, Outcome.mapM_cons, member_of_toValue? (toValue?_ofValue hv), ih hvalues]
    rfl

/-! ### Tests -/

/-- A test that can be expressed is read back from its content, each kind by the modifier that it was written with. -/
theorem fieldTest_ofTest {test : Test} (h : test.Expressible) (field : String) :
    fieldTest field (ofTest test) = .ok test := by
  cases h with
  | equals hv => exact fieldTest_of_toValue? (toValue?_ofValue hv) field
  | compared hb hl hs hv =>
    rw [ofTest, fieldTest, modified, Modifier.ofToken_of_other hb hs hl]
    simp only [scalar_of_toValue? (toValue?_ofValue hv)]
    rfl
  | @between low high hlow hhigh =>
    have hmembers : members field "BETWEEN" (.array [ofValue low, ofValue high]) = .ok [low, high] :=
      mapM_member_ofValue [low, high] (by simp [hlow, hhigh]) field "BETWEEN"
    rw [ofTest, fieldTest, modified, Modifier.ofToken_of_between (by decide +kernel)]
    simp only [bounds, hmembers]
    rfl
  | @oneOf relation values hvalues =>
    have hphrase : Text.phrase relation.words = relation.words := by
      cases relation <;> decide +kernel
    have hmembers : members field relation.words (.array (values.map ofValue)) = .ok values :=
      mapM_member_ofValue values hvalues field relation.words
    rw [ofTest, fieldTest, modified, Modifier.ofToken_of_set hphrase]
    simp only [hmembers]
    rfl
  | like hpattern =>
    rw [ofTest, fieldTest, modified, Modifier.ofToken_of_like (by decide +kernel)]
    simp only [toValue?_ofValue hpattern]

/-- The content of a field has one object at most, of a single member. -/
theorem distinctKeys_ofTest {test : Test} (h : test.Expressible) : (ofTest test).DistinctKeys := by
  have hmodified : ∀ {token : String} {operand : Document}, operand.DistinctKeys →
      (Document.object [(token, operand)]).DistinctKeys := by
    intro token operand hoperand
    exact .object (by simp) (List.forall_mem_singleton.mpr hoperand)
  have hvalues : ∀ values : List Value, (∀ v ∈ values, v.IsScalar) →
      (Document.array (values.map ofValue)).DistinctKeys := by
    intro values hvalues
    refine .array fun item hitem => ?_
    obtain ⟨v, hv, rfl⟩ := List.mem_map.mp hitem
    exact distinctKeys_of_toValue? (toValue?_ofValue (hvalues v hv))
  cases h with
  | equals hv => exact distinctKeys_of_toValue? (toValue?_ofValue hv)
  | compared _ _ _ hv => exact hmodified (distinctKeys_of_toValue? (toValue?_ofValue hv))
  | @between low high hlow hhigh => exact hmodified (hvalues [low, high] (by simp [hlow, hhigh]))
  | oneOf h => exact hmodified (hvalues _ h)
  | like hpattern => exact hmodified (distinctKeys_of_toValue? (toValue?_ofValue hpattern))

theorem mapM_entriesOf {cs : List Condition}
    (h : ∀ c ∈ cs, ∀ position, entryCondition (entryOf position c) = .ok c) (position : Nat) :
    (entriesOf position cs).mapM entryCondition = .ok cs := by
  induction cs generalizing position with
  | nil => rfl
  | cons c cs ih =>
    obtain ⟨hc, hcs⟩ := List.forall_mem_cons.mp h
    rw [entriesOf, Outcome.mapM_cons, hc, ih hcs]
    rfl

/-- A condition that can be expressed is read back from its member, by induction on the nesting. -/
theorem entryCondition_entryOf {c : Condition} (h : c.Expressible) (position : Nat) :
    entryCondition (entryOf position c) = .ok c := by
  induction h generalizing position with
  | @field name test hname hkey htest =>
    rw [entryOf]
    exact entryCondition_of_fieldTest hname hkey (fieldTest_ofTest htest name)
  | @group connective children hne _ _ ih =>
    rw [entryOf, entryCondition, keyRole_groupKey]
    simp only [Document.group, entryConditions_eq_mapM, mapM_entriesOf ih]
    exact nonempty_eq_ok.mpr ⟨hne, rfl⟩

/-- The keys of a list are fields of its tests, or keys for groups at the positions of the list. -/
theorem key_cases {cs : List Condition} (h : ∀ c ∈ cs, c.Expressible) {position : Nat} {key : String}
    (hkey : key ∈ (entriesOf position cs).map Prod.fst) :
    (key ∈ cs.filterMap Condition.fieldName? ∧ ¬GroupKey key) ∨
      ∃ i connective, position ≤ i ∧ key = groupKey i connective := by
  induction cs generalizing position with
  | nil => cases hkey
  | cons c cs ih =>
    obtain ⟨hc, hcs⟩ := List.forall_mem_cons.mp h
    rw [entriesOf, List.map_cons, List.mem_cons] at hkey
    rcases hkey with rfl | hkey
    · cases hc with
      | field _ hgroup _ => exact Or.inl ⟨by simp [entryOf, Condition.fieldName?], hgroup⟩
      | group => exact Or.inr ⟨position, _, Nat.le_refl _, rfl⟩
    · rcases ih hcs hkey with ⟨hfield, hgroup⟩ | ⟨i, connective, hi, hkey⟩
      · rw [List.mem_filterMap] at hfield ⊢
        obtain ⟨d, hd, hname⟩ := hfield
        exact Or.inl ⟨⟨d, List.mem_cons_of_mem c hd, hname⟩, hgroup⟩
      · exact Or.inr ⟨i, connective, Nat.le_of_succ_le hi, hkey⟩

/-- The keys of a list are distinct: those of fields as the fields are, and those of groups by their positions. -/
theorem nodup_keys {cs : List Condition} (h : ∀ c ∈ cs, c.Expressible) (hfields : Condition.DistinctFields cs)
    (position : Nat) : ((entriesOf position cs).map Prod.fst).Nodup := by
  induction cs generalizing position with
  | nil => exact List.nodup_nil
  | cons c cs ih =>
    obtain ⟨hc, hcs⟩ := List.forall_mem_cons.mp h
    rw [entriesOf, List.map_cons, List.nodup_cons]
    cases hc with
    | @field name test _ hgroup _ =>
      have hfield : (Condition.field name test).fieldName? = some name := rfl
      rw [Condition.DistinctFields, List.filterMap_cons_some hfield, List.nodup_cons] at hfields
      refine ⟨fun hkey => ?_, ih hcs hfields.2 _⟩
      rcases key_cases hcs hkey with ⟨hfield, -⟩ | ⟨i, connective, -, hkey⟩
      · exact hfields.1 hfield
      · have hname : name = groupKey i connective := hkey
        exact hgroup (hname ▸ groupKey_isGroupKey i connective)
    | @group connective children =>
      -- Fields are not keys of groups, and the groups that follow stand at later positions.
      rw [Condition.DistinctFields, List.filterMap_cons_none rfl] at hfields
      refine ⟨fun hkey => ?_, ih hcs hfields _⟩
      rcases key_cases hcs hkey with ⟨-, hgroup⟩ | ⟨i, connective', hi, hkey⟩
      · exact hgroup (groupKey_isGroupKey position connective)
      · exact absurd (groupKey_injective hkey) (Nat.ne_of_lt hi)

theorem distinctKeys_entries {cs : List Condition} (h : ∀ c ∈ cs, c.Expressible)
    (hfields : Condition.DistinctFields cs) (ih : ∀ c ∈ cs, ∀ position, (entryOf position c).2.DistinctKeys)
    (position : Nat) : (Document.object (entriesOf position cs)).DistinctKeys := by
  refine .object (nodup_keys h hfields position) ?_
  clear h hfields
  induction cs generalizing position with
  | nil => exact nofun
  | cons c cs ihcs =>
    obtain ⟨hc, hcs⟩ := List.forall_mem_cons.mp ih
    exact List.forall_mem_cons.mpr ⟨hc position, ihcs hcs (position + 1)⟩

theorem distinctKeys_entryOf {c : Condition} (h : c.Expressible) (position : Nat) :
    (entryOf position c).2.DistinctKeys := by
  induction h generalizing position with
  | field _ _ htest => exact distinctKeys_ofTest htest
  | group _ hchildren hfields ih => exact distinctKeys_entries hchildren hfields ih 0

/-- Conditions with distinct fields in each list are read from a document with distinct keys in each object. -/
theorem exists_conditions_eq {cs : List Condition} (h : ∀ c ∈ cs, c.Expressible)
    (hfields : Condition.DistinctFields cs) : ∃ d : Document, d.DistinctKeys ∧ d.conditions = .ok cs := by
  refine ⟨.object (entriesOf 0 cs), ?_, ?_⟩
  · exact distinctKeys_entries h hfields (fun c hc => distinctKeys_entryOf (h c hc)) 0
  · rw [conditions, entryConditions_eq_mapM]
    exact mapM_entriesOf (fun c hc => entryCondition_entryOf (h c hc)) 0

/-- Groups of one connective side by side, a set without members, and operators with blanks and without letters. -/
theorem exists_conditions_eq_nested :
    ∃ cs, cs = [
        .field "a" (.compare none (.float ⟨0x8000000000000000⟩)),
        .group (some .and) [.field "a" (.oneOf .notIn []), .field "b" (.between .null (.int (-9223372036854775808)))],
        .group (some .and) [
          .field "b" (.compare (some " is  not ") .null),
          .group none [.field "b" (.like (.text "0"))]],
        .group none [.field "b" (.compare (some "") (.bool true))]] ∧
      (∀ c ∈ cs, c.Expressible) ∧ Condition.DistinctFields cs ∧
      ∃ d : Document, d.DistinctKeys ∧ d.conditions = .ok cs := by
  have hname : ∀ name ∈ ["a", "b"], Text.trim name ≠ "" ∧ ¬GroupKey name := by decide +kernel
  have ha : ∀ {test : Test}, test.Expressible → (Condition.field "a" test).Expressible :=
    .field (hname "a" (by simp)).1 (hname "a" (by simp)).2
  have hb : ∀ {test : Test}, test.Expressible → (Condition.field "b" test).Expressible :=
    .field (hname "b" (by simp)).1 (hname "b" (by simp)).2
  have hphrase : ∀ relation : SetRelation, Text.phrase " is  not " ≠ relation.words ∧ Text.phrase "" ≠ relation.words := by
    intro relation
    cases relation <;> decide +kernel
  have hequals : (Condition.field "a" (.compare none (.float ⟨0x8000000000000000⟩))).Expressible := ha (.equals rfl)
  have hset : (Condition.field "a" (.oneOf .notIn [])).Expressible := ha (.oneOf (by simp))
  have hrange : (Condition.field "b" (.between .null (.int (-9223372036854775808)))).Expressible :=
    hb (.between trivial trivial)
  have hisNot : (Condition.field "b" (.compare (some " is  not ") .null)).Expressible :=
    hb (.compared (by decide +kernel) (by decide +kernel) (fun relation => (hphrase relation).1) trivial)
  have hlike : (Condition.field "b" (.like (.text "0"))).Expressible := hb (.like trivial)
  have hempty : (Condition.field "b" (.compare (some "") (.bool true))).Expressible :=
    hb (.compared (by decide +kernel) (by decide +kernel) (fun relation => (hphrase relation).2) trivial)
  have hsecond : (Condition.group (some .and)
      [.field "a" (.oneOf .notIn []), .field "b" (.between .null (.int (-9223372036854775808)))]).Expressible :=
    .group (by simp) (by simp [hset, hrange]) (by decide)
  have hinner : (Condition.group none [.field "b" (.like (.text "0"))]).Expressible :=
    .group (by simp) (List.forall_mem_singleton.mpr hlike) (by decide)
  have hthird : (Condition.group (some .and) [
      .field "b" (.compare (some " is  not ") .null),
      .group none [.field "b" (.like (.text "0"))]]).Expressible :=
    .group (by simp) (by simp [hisNot, hinner]) (by decide)
  have hfourth : (Condition.group none [.field "b" (.compare (some "") (.bool true))]).Expressible :=
    .group (by simp) (List.forall_mem_singleton.mpr hempty) (by decide)
  have hcs := List.forall_mem_cons.mpr ⟨hequals, List.forall_mem_cons.mpr ⟨hsecond, List.forall_mem_cons.mpr
    ⟨hthird, List.forall_mem_singleton.mpr hfourth⟩⟩⟩
  exact ⟨_, rfl, hcs, by decide, exists_conditions_eq hcs (by decide)⟩

end Document
end Criteria
