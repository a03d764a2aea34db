import Criteria.Proofs.Keyword
import Criteria.Proofs.Reading
import Mathlib.Data.List.Basic

/-! The grammar of documents. The documents that describe conditions are told here by their shape alone, from the
    scalars up: what can be read as a value, which operands fit a modifier, what a field holds, and what makes a
    group. The reader accepts exactly these documents. -/

namespace Criteria
namespace Document

/-- A scalar that stands for a value: whole numbers of more than 63 bits do not. -/
inductive Readable : Document → Prop
  | null : Readable .null
  | bool {b : Bool} : Readable (.bool b)
  | string {s : String} : Readable (.string s)
  | integer {n : Int} {lower : -2 ^ 63 ≤ n} {upper : n < 2 ^ 64} : n < 2 ^ 63 →
      Readable (.number (.integer n lower upper))
  | double {x : Binary64} {finite : x.isFinite = true} : Readable (.number (.double x finite))

/-- Taking first items leads to a readable scalar. -/
inductive Leads : Document → Prop
  | scalar {d : Document} : Readable d → Leads d
  | first {item : Document} {rest : List Document} : Leads item → Leads (.array (item :: rest))

/-- The operand fits the modifier that the token spells. -/
inductive Fits (token : String) : Document → Prop
  | range {low high : Document} : Text.keyword token = "BETWEEN" → Readable low → Readable high →
      Fits token (.array [low, high])
  | member {relation : SetRelation} {d : Document} : Text.phrase token = relation.words → Readable d → Fits token d
  | members {relation : SetRelation} {items : List Document} : Text.phrase token = relation.words →
      (∀ item ∈ items, Readable item) → Fits token (.array items)
  | pattern {d : Document} : Text.keyword token = "LIKE" → Readable d → Fits token d
  | operand {d : Document} : Text.keyword token ≠ "BETWEEN" →
      (∀ relation : SetRelation, Text.phrase token ≠ relation.words) → Text.keyword token ≠ "LIKE" → Leads d →
      Fits token d

/-- A token that may head a list of itself and an operand. -/
def ListModifier (token : String) : Prop :=
  Text.keyword token = "BETWEEN" ∨ Text.keyword token = "LIKE" ∨
    (∃ relation : SetRelation, Text.phrase token = relation.words) ∨ Text.keyword token ∈ Operator.comparisons

/-- What a field can hold: a scalar, one modifier with its operand, or a list of which the first value counts. -/
inductive Content : Document → Prop
  | scalar {d : Document} : Readable d → Content d
  | modifier {token : String} {operand : Document} : Fits token operand → Content (.object [(token, operand)])
  | listed {token : String} {operand : Document} : ListModifier token → Fits token operand →
      Content (.array [.string token, operand])
  | list {items : List Document} : (∀ token operand, items = [.string token, operand] → ¬ListModifier token) →
      Leads (.array items) → Content (.array items)

/-- A key of a group and not of a field. -/
def GroupKey (key : String) : Prop :=
  Operator.isNumericToken key = true ∨ Text.keyword key = "AND" ∨ Text.keyword key = "OR"

/-- Whether a document has no entries. -/
def IsEmpty (d : Document) : Prop := d = .array [] ∨ d = .object []

/-- The body of a group. The groups in it are bodies in turn and have entries. -/
inductive Body : Document → Prop
  | array {items : List Document} : (∀ item ∈ items, Body item) → (∀ item ∈ items, ¬item.IsEmpty) →
      Body (.array items)
  | object {entries : List (String × Document)} :
      (∀ entry ∈ entries, GroupKey entry.1 → Body entry.2) →
      (∀ entry ∈ entries, GroupKey entry.1 → ¬entry.2.IsEmpty) →
      (∀ entry ∈ entries, ¬GroupKey entry.1 → Text.trim entry.1 ≠ "" ∧ Content entry.2) →
      Body (.object entries)

/-- A document that describes conditions. -/
def Describes (d : Document) : Prop := d = .null ∨ Body d

/-! ### Scalars -/

/-- What a scalar is by its shape is what is read as a value. -/
theorem readable_iff {d : Document} : Readable d ↔ ∃ v, d.toValue? = some v := by
  constructor
  · intro h
    cases h with
    | integer h => exact ⟨_, by rw [toValue?, if_pos h]⟩
    | _ => exact ⟨_, rfl⟩
  · rintro ⟨v, hv⟩
    cases d with
    | null => exact .null
    | bool b => exact .bool
    | string s => exact .string
    | number n =>
      cases n with
      | integer n lower upper =>
        rw [toValue?] at hv
        split at hv
        · exact .integer ‹_›
        · cases hv
      | double x finite => exact .double
    | array items => cases hv
    | object members => cases hv

theorem not_readable_array {items : List Document} : ¬Readable (.array items) := fun h => nomatch h

theorem not_readable_object {members : List (String × Document)} : ¬Readable (.object members) := fun h => nomatch h

/-- The first leaf is where taking first items ends. -/
theorem leads_iff {d : Document} : Leads d ↔ ∃ leaf, d.firstLeaf? = some leaf ∧ Readable leaf := by
  induction d with
  | array items ih =>
    cases items with
    | nil =>
      constructor
      · rintro (h | h)
        cases h
      · rintro ⟨leaf, h, -⟩
        cases h
    | cons item rest =>
      -- An array with items leads on to its first item, and it is no scalar itself.
      rw [show (Document.array (item :: rest)).firstLeaf? = item.firstLeaf? by rw [firstLeaf?],
        ← ih item List.mem_cons_self]
      constructor
      · rintro (h | h)
        · cases h
        · exact h
      · exact .first
  | _ =>
    simp only [firstLeaf?, Option.some.injEq, exists_eq_left']
    exact ⟨fun h => by cases h; assumption, .scalar⟩

variable {field token : String} {d : Document}

theorem isOk_member : (member field token d).isOk = true ↔ Readable d := by
  rw [readable_iff, member]
  cases d.toValue? <;> simp [Except.isOk, Except.toBool]

theorem isOk_scalar : (scalar field token d).isOk = true ↔ Leads d := by
  rw [leads_iff, scalar]
  cases d.firstLeaf? with
  | none => simp [Except.isOk, Except.toBool]
  | some leaf =>
    simp only [Option.some.injEq, exists_eq_left', readable_iff]
    cases leaf.toValue? <;> simp [Except.isOk, Except.toBool]

theorem isOk_members : (members field token d).isOk = true ↔
    Readable d ∨ ∃ items, d = .array items ∧ ∀ item ∈ items, Readable item := by
  cases d with
  | array items => simp [members, Outcome.isOk_mapM, isOk_member, not_readable_array]
  | _ =>
    rw [members, Outcome.isOk_bind_pure, isOk_member]
    · simp
    · intro items h
      cases h

/-- A range is read if it is an array of two values. Its items are read before they are counted. -/
theorem isOk_bounds : (bounds field d).isOk = true ↔
    ∃ low high, d = .array [low, high] ∧ Readable low ∧ Readable high := by
  constructor
  · intro h
    cases d with
    | array items =>
      rw [bounds, Outcome.isOk_bind] at h
      obtain ⟨values, hvalues, h⟩ := h
      have hread : ∀ item ∈ items, Readable item := fun item hitem =>
        isOk_member.mp (Outcome.isOk_mapM.mp (Outcome.isOk_iff.mpr ⟨values, hvalues⟩) item hitem)
      have hlength : items.length = values.length := (Outcome.length_of_mapM hvalues).symm
      split at h
      · obtain ⟨low, high, rfl⟩ := List.length_eq_two.mp hlength
        exact ⟨low, high, rfl, hread low (by simp), hread high (by simp)⟩
      · cases h
    | _ => cases h
  · rintro ⟨low, high, rfl, hlow, hhigh⟩
    obtain ⟨v, hv⟩ := Outcome.isOk_iff.mp (isOk_member.mpr hlow)
    obtain ⟨w, hw⟩ := Outcome.isOk_iff.mp (isOk_member.mpr hhigh)
    rw [bounds, members, Outcome.mapM_cons, hv, Outcome.mapM_cons, hw]
    rfl

/-! ### Modifiers

The classes of tokens exclude each other, so in each class only its own constructors are left. -/

theorem fits_iff_of_between (h : Text.keyword token = "BETWEEN") :
    Fits token d ↔ ∃ low high, d = .array [low, high] ∧ Readable low ∧ Readable high := by
  constructor
  · intro hfits
    cases hfits with
    | range _ hlow hhigh => exact ⟨_, _, rfl, hlow, hhigh⟩
    | member hs => exact absurd hs (Modifier.phrase_ne_words_of_between h _)
    | members hs => exact absurd hs (Modifier.phrase_ne_words_of_between h _)
    | pattern hl => exact absurd (h.symm.trans hl) (by decide)
    | operand hb => exact absurd h hb
  · rintro ⟨low, high, rfl, hlow, hhigh⟩
    exact .range h hlow hhigh

theorem fits_iff_of_set {relation : SetRelation} (h : Text.phrase token = relation.words) :
    Fits token d ↔ Readable d ∨ ∃ items, d = .array items ∧ ∀ item ∈ items, Readable item := by
  constructor
  · intro hfits
    cases hfits with
    | range hb => exact absurd h (Modifier.phrase_ne_words_of_between hb _)
    | member _ hd => exact Or.inl hd
    | members _ hitems => exact Or.inr ⟨_, rfl, hitems⟩
    | pattern hl => exact absurd h (Modifier.phrase_ne_words_of_like hl _)
    | operand _ hs => exact absurd h (hs relation)
  · rintro (hd | ⟨items, rfl, hitems⟩)
    · exact .member h hd
    · exact .members h hitems

theorem fits_iff_of_like (h : Text.keyword token = "LIKE") : Fits token d ↔ Readable d := by
  constructor
  · intro hfits
    cases hfits with
    | range hb => exact absurd (hb.symm.trans h) (by decide)
    | member hs => exact absurd hs (Modifier.phrase_ne_words_of_like h _)
    | members hs => exact absurd hs (Modifier.phrase_ne_words_of_like h _)
    | pattern _ hd => exact hd
    | operand _ _ hl => exact absurd h hl
  · exact .pattern h

theorem fits_iff_of_other (hb : Text.keyword token ≠ "BETWEEN") (hs : ∀ relation : SetRelation,
    Text.phrase token ≠ relation.words) (hl : Text.keyword token ≠ "LIKE") : Fits token d ↔ Leads d := by
  constructor
  · intro hfits
    cases hfits with
    | range h => exact absurd h hb
    | member h => exact absurd h (hs _)
    | members h => exact absurd h (hs _)
    | pattern h => exact absurd h hl
    | operand _ _ _ hd => exact hd
  · exact .operand hb hs hl

/-- An operand is read with its modifier if it fits the modifier. -/
theorem isOk_modified : (modified field token d).isOk = true ↔ Fits token d := by
  unfold modified
  rcases Modifier.ofToken_cases token with ⟨h, ht⟩ | ⟨relation, h, ht⟩ | ⟨h, ht⟩ | ⟨hb, hs, hl, ht⟩ <;> rw [ht]
  · rw [fits_iff_of_between h, ← isOk_bounds]
    exact Eq.congr_left Outcome.isOk_bind_pure
  · rw [fits_iff_of_set h, ← isOk_members]
    exact Eq.congr_left Outcome.isOk_bind_pure
  · rw [fits_iff_of_like h, readable_iff]
    cases d.toValue? <;> simp [Except.isOk, Except.toBool]
  · rw [fits_iff_of_other hb hs hl, ← isOk_scalar]
    exact Eq.congr_left Outcome.isOk_bind_pure

/-! ### Fields -/

theorem isOk_positional : (positional field d).isOk = true ↔ Leads d := by
  rw [← isOk_scalar]
  exact Eq.congr_left Outcome.isOk_bind_pure

theorem content_object_iff {entries : List (String × Document)} :
    Content (.object entries) ↔ ∃ token operand, entries = [(token, operand)] ∧ Fits token operand := by
  constructor
  · intro h
    cases h with
    | scalar h => exact absurd h not_readable_object
    | modifier h => exact ⟨_, _, rfl, h⟩
  · rintro ⟨token, operand, rfl, h⟩
    exact .modifier h

theorem content_listed_iff (h : ListModifier token) : Content (.array [.string token, d]) ↔ Fits token d := by
  constructor
  · intro hcontent
    cases hcontent with
    | scalar hd => exact absurd hd not_readable_array
    | listed _ hfits => exact hfits
    | list hdata => exact absurd h (hdata token d rfl)
  · exact .listed h

/-- A list that no modifier heads is data. -/
theorem content_list_iff {items : List Document}
    (h : ∀ token operand, items = [.string token, operand] → ¬ListModifier token) :
    Content (.array items) ↔ Leads (.array items) := by
  constructor
  · intro hcontent
    cases hcontent with
    | scalar hd => exact absurd hd not_readable_array
    | listed hlist => exact absurd hlist (h _ _ rfl)
    | list _ hleads => exact hleads
  · exact .list h

theorem listModifier_or_data (items : List Document) :
    (∃ token operand, items = [.string token, operand] ∧ ListModifier token) ∨
    ∀ token operand, items = [.string token, operand] → ¬ListModifier token := by
  by_cases h : ∃ token operand, items = [.string token, operand] ∧ ListModifier token
  · exact Or.inl h
  · exact Or.inr fun token operand hitems hmodifier => h ⟨token, operand, hitems, hmodifier⟩

theorem fieldTest_of_listModifier {token : String} {operand : Document} (h : ListModifier token) (field : String) :
    fieldTest field (.array [.string token, operand]) = modified field token operand := by
  rw [fieldTest, if_pos (Modifier.leadsList_iff.mpr h)]

theorem fieldTest_of_not_listModifier {items : List Document}
    (h : ∀ token operand, items = [.string token, operand] → ¬ListModifier token) (field : String) :
    fieldTest field (.array items) = positional field (.array items) :=
  fieldTest_of_data fun token operand hitems =>
    Bool.eq_false_iff.mpr fun hlead => h token operand hitems (Modifier.leadsList_iff.mp hlead)

/-- The content of a field is read if it has one of the four forms. -/
theorem isOk_fieldTest : (fieldTest field d).isOk = true ↔ Content d := by
  cases d with
  | object entries =>
    rw [content_object_iff]
    constructor
    · intro h
      match entries with
      | [(token, operand)] => exact ⟨token, operand, rfl, isOk_modified.mp h⟩
      | [] => cases h
      | _ :: _ :: _ => cases h
    · rintro ⟨token, operand, rfl, h⟩
      exact isOk_modified.mpr h
  | array items =>
    -- A list is read as a modifier with its operand or as data, never as both.
    rcases listModifier_or_data items with ⟨token, operand, rfl, hlist⟩ | hdata
    · rw [content_listed_iff hlist, fieldTest_of_listModifier hlist, isOk_modified]
    · rw [content_list_iff hdata, fieldTest_of_not_listModifier hdata, isOk_positional]
  | _ =>
    refine (Eq.congr_left Outcome.isOk_bind_pure).trans (isOk_scalar.trans ?_)
    constructor
    · rintro (h | h)
      exact .scalar h
    · rintro (h | h)
      exact .scalar h

theorem isOk_fieldCondition {field : String} :
    (fieldCondition field d).isOk = true ↔ Text.trim field ≠ "" ∧ Content d := by
  rw [fieldCondition]
  by_cases h : Text.isBlankText field = true
  · rw [if_pos h]
    simp [Text.isBlankText_iff.mp h, Except.isOk, Except.toBool]
  · rw [if_neg h, Outcome.isOk_bind_pure, isOk_fieldTest]
    exact (and_iff_right fun htrim => h (Text.isBlankText_iff.mpr htrim)).symm

/-- The role of a key, by its spelling. -/
theorem keyRole_cases (key : String) :
    (GroupKey key ∧ ∃ connective, keyRole key = .group connective) ∨ (¬GroupKey key ∧ keyRole key = .field) := by
  by_cases hnumeric : Operator.isNumericToken key = true
  · exact Or.inl ⟨Or.inl hnumeric, none, if_pos hnumeric⟩
  rw [keyRole, if_neg hnumeric, Connective.ofKeyword?, GroupKey]
  by_cases hand : Text.keyword key = "AND"
  · rw [hand]
    exact Or.inl ⟨Or.inr (Or.inl rfl), _, rfl⟩
  by_cases hor : Text.keyword key = "OR"
  · rw [hor]
    exact Or.inl ⟨Or.inr (Or.inr rfl), _, rfl⟩
  · refine Or.inr ⟨by simp [hnumeric, hand, hor], ?_⟩
    split <;> simp_all

theorem body_array_iff {items : List Document} :
    Body (.array items) ↔ ∀ item ∈ items, Body item ∧ ¬item.IsEmpty := by
  constructor
  · intro h
    cases h with
    | array hbody hentries => exact fun item hitem => ⟨hbody item hitem, hentries item hitem⟩
  · exact fun h => .array (fun item hitem => (h item hitem).1) fun item hitem => (h item hitem).2

theorem body_object_iff {entries : List (String × Document)} : Body (.object entries) ↔ ∀ entry ∈ entries,
    (GroupKey entry.1 ∧ Body entry.2 ∧ ¬entry.2.IsEmpty) ∨
    (¬GroupKey entry.1 ∧ Text.trim entry.1 ≠ "" ∧ Content entry.2) := by
  constructor
  · intro h entry hentry
    cases h with
    | object hbody hentries hfields =>
      by_cases hkey : GroupKey entry.1
      · exact Or.inl ⟨hkey, hbody entry hentry hkey, hentries entry hentry hkey⟩
      · exact Or.inr ⟨hkey, hfields entry hentry hkey⟩
  · intro h
    refine .object (fun entry hentry hkey => ?_) (fun entry hentry hkey => ?_) fun entry hentry hkey => ?_
    · exact ((h entry hentry).resolve_right fun hfield => hfield.1 hkey).2.1
    · exact ((h entry hentry).resolve_right fun hfield => hfield.1 hkey).2.2
    · exact ((h entry hentry).resolve_left fun hgroup => hkey hgroup.1).2

/-- A group is read if its conditions are and if it has entries, of which each gives one condition. -/
theorem isOk_nonempty {α : Type} {key : String} {connective : Option Connective} {entries : List α}
    {children : Except Fault (List Condition)}
    (hlength : ∀ conditions, children = .ok conditions → conditions.length = entries.length) :
    (children >>= nonempty key connective).isOk = true ↔ children.isOk = true ∧ entries ≠ [] := by
  rw [Outcome.isOk_bind, Outcome.isOk_iff, ← exists_and_right]
  refine exists_congr fun conditions => and_congr_right fun h => ?_
  have hempty : conditions = [] ↔ entries = [] := by
    rw [← List.length_eq_zero_iff, hlength conditions h, List.length_eq_zero_iff]
  rw [ne_eq, ← hempty, nonempty]
  cases conditions <;> simp [Except.isOk, Except.toBool]

/-- The document is read as a group if it is a body with entries. -/
def ReadAsGroup (d : Document) : Prop :=
  ∀ key connective, (group key connective d).isOk = true ↔ Body d ∧ ¬d.IsEmpty

/-- An entry at the key of a group is read if it is a group with entries, and any other one if it is a field. -/
theorem isOk_entryCondition {entry : String × Document} (h : ReadAsGroup entry.2) :
    (entryCondition entry).isOk = true ↔
      (GroupKey entry.1 ∧ Body entry.2 ∧ ¬entry.2.IsEmpty) ∨
      (¬GroupKey entry.1 ∧ Text.trim entry.1 ≠ "" ∧ Content entry.2) := by
  rcases keyRole_cases entry.1 with ⟨hkey, connective, hrole⟩ | ⟨hkey, hrole⟩
  · simp only [entryCondition, hrole, hkey, not_true, true_and, false_and, or_false]
    exact h entry.1 connective
  · simp only [entryCondition, hrole, hkey, not_false_iff, true_and, false_and, false_or]
    exact isOk_fieldCondition

/-- An array is read as a body if each of its items is read as a group. The positions of the items do not matter. -/
theorem isOk_itemConditions {items : List Document} (h : ∀ item ∈ items, ReadAsGroup item) {position : Nat} :
    (itemConditions position items).isOk = true ↔ Body (.array items) := by
  have hitems : (items.zipIdx position).map Prod.fst = items := List.zipIdx_map_fst position items
  rw [itemConditions_eq_mapM, Outcome.isOk_mapM, body_array_iff]
  constructor
  · intro hok item hitem
    obtain ⟨pair, hpair, rfl⟩ := List.mem_map.mp (hitems.symm ▸ hitem)
    exact (h pair.1 hitem _ _).mp (hok pair hpair)
  · intro hbody pair hpair
    have hitem : pair.1 ∈ items := hitems ▸ List.mem_map_of_mem hpair
    exact (h pair.1 hitem _ _).mpr (hbody pair.1 hitem)

theorem isOk_entryConditions {entries : List (String × Document)} (h : ∀ entry ∈ entries, ReadAsGroup entry.2) :
    (entryConditions entries).isOk = true ↔ Body (.object entries) := by
  rw [entryConditions_eq_mapM, Outcome.isOk_mapM, body_object_iff]
  exact forall₂_congr fun entry hentry => isOk_entryCondition (h entry hentry)

/-- By induction on the nesting of the document, whose entries are groups in turn. -/
theorem readAsGroup (d : Document) : ReadAsGroup d := by
  induction d with
  | array items ih =>
    intro key connective
    have hlength : ∀ conditions, itemConditions 0 items = .ok conditions → conditions.length = items.length := by
      intro conditions h
      rw [itemConditions_eq_mapM] at h
      rw [Outcome.length_of_mapM h, List.length_zipIdx]
    rw [group, isOk_nonempty hlength, isOk_itemConditions ih]
    simp [IsEmpty]
  | object entries ih =>
    intro key connective
    have hlength : ∀ conditions, entryConditions entries = .ok conditions → conditions.length = entries.length := by
      intro conditions h
      rw [entryConditions_eq_mapM] at h
      exact Outcome.length_of_mapM h
    rw [group, isOk_nonempty hlength, isOk_entryConditions ih]
    simp [IsEmpty]
  | _ =>
    intro key connective
    constructor
    · intro h
      cases h
    · rintro ⟨h, -⟩
      cases h

/-- Exactly the documents that describe conditions are read. -/
theorem conditions_isOk_iff (d : Document) : (∃ conditions, d.conditions = .ok conditions) ↔ d.Describes := by
  rw [← Outcome.isOk_iff, Describes]
  cases d with
  | null => simp [conditions, Except.isOk, Except.toBool]
  | array items => simp [conditions, isOk_itemConditions fun item _ => readAsGroup item]
  | object entries => simp [conditions, isOk_entryConditions fun entry _ => readAsGroup entry.2]
  | _ =>
    constructor
    · intro h
      cases h
    · rintro (h | h) <;> cases h

end Document
end Criteria
