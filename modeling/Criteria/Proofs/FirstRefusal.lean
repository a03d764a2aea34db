import Criteria.Proofs.Entries
import Criteria.Proofs.Refusal

/-! The first refusal of a document. Entries are read in document order, and reading ends at the first one that is
    refused. Whatever stands before it, as far as it can be read, and whatever stands behind it, the fault is the fault
    of this entry. For a group this is the fault of an entry inside, so reading ends at one innermost entry: a field, or
    a group that holds no entry or is none at all. -/

namespace Criteria
namespace Document

/-- An entry is refused for what it is itself: a group for its shape or its emptiness, a field by the rules for fields. -/
inductive RefusedEntry : String × Document → Fault → Prop
  | notAGroup {key : String} {content : Document} : GroupKey key → ¬content.IsGroup →
      RefusedEntry (key, content) (.notAGroup key content.shape)
  | empty {key : String} {content : Document} : GroupKey key → content.IsEmpty →
      RefusedEntry (key, content) (.emptyGroup key)
  | field {key : String} {content : Document} {fault : Fault} : ¬GroupKey key → RefusedField key content fault →
      RefusedEntry (key, content) fault

/-- Reading the document gets to the entry, which stands in the document or in one of its groups, at any depth: at each
    level all entries in front of it can be read. -/
inductive Reaches : Document → String × Document → Prop
  | here {d : Document} {before after : List (String × Document)} {entry : String × Document} :
      d.entries = before ++ entry :: after → (∀ earlier ∈ before, (entryCondition earlier).isOk = true) →
      Reaches d entry
  | inside {d inner : Document} {key : String} {before after : List (String × Document)} {entry : String × Document} :
      d.entries = before ++ (key, inner) :: after → (∀ earlier ∈ before, (entryCondition earlier).isOk = true) →
      GroupKey key → Reaches inner entry → Reaches d entry

/-- A document is refused at an entry that reading gets to, or because it is no group in the first place. -/
inductive Refused (d : Document) : Fault → Prop
  | root : ¬d.IsGroup → d ≠ .null → Refused d (.invalidRoot d.shape)
  | entry {entry : String × Document} {fault : Fault} : d.Reaches entry → RefusedEntry entry fault → Refused d fault

variable {d : Document} {entry : String × Document} {fault : Fault}

theorem isGroup_of_mem_entries (h : entry ∈ d.entries) : d.IsGroup := by
  cases d with
  | array items => exact .array
  | object members => exact .object
  | _ => cases h

theorem isGroup_of_entries_eq {before after : List (String × Document)} (h : d.entries = before ++ entry :: after) :
    d.IsGroup :=
  isGroup_of_mem_entries (h ▸ List.mem_append_cons_self)

theorem conditions_eq_error_iff (h : d.IsGroup) : d.conditions = .error fault ↔
    ∃ before entry after, d.entries = before ++ entry :: after ∧
      (∀ earlier ∈ before, (entryCondition earlier).isOk = true) ∧ entryCondition entry = .error fault := by
  rw [conditions_eq_mapM h, Outcome.mapM_eq_error_iff]

theorem nonempty_eq_error {key : String} {connective : Option Connective} {children : List Condition} :
    nonempty key connective children = .error fault ↔ children = [] ∧ fault = .emptyGroup key := by
  rw [nonempty]
  cases children <;> simp [eq_comm]

theorem group_eq_error_iff (h : d.IsGroup) {key : String} {connective : Option Connective} :
    group key connective d = .error fault ↔
      d.conditions = .error fault ∨ d.IsEmpty ∧ fault = .emptyGroup key := by
  rw [group_eq_bind h, Outcome.bind_eq_error]
  refine or_congr_right ?_
  simp only [nonempty_eq_error]
  constructor
  · rintro ⟨children, hchildren, rfl, rfl⟩
    rw [conditions_eq_mapM h] at hchildren
    exact ⟨isEmpty_iff.mpr ⟨h, List.eq_nil_of_length_eq_zero (Outcome.length_of_mapM hchildren).symm⟩, rfl⟩
  · rintro ⟨hempty, rfl⟩
    refine ⟨[], ?_, rfl, rfl⟩
    rw [conditions_eq_mapM h, (isEmpty_iff.mp hempty).2]
    rfl

/-- The fault of the first refused entry is the fault of the document, and of every group that holds it. -/
theorem error_of_entry {before after : List (String × Document)} (hsplit : d.entries = before ++ entry :: after)
    (hbefore : ∀ earlier ∈ before, (entryCondition earlier).isOk = true) (hentry : entryCondition entry = .error fault) :
    d.conditions = .error fault ∧ ∀ key connective, group key connective d = .error fault := by
  have hd : d.IsGroup := isGroup_of_entries_eq hsplit
  have h : d.conditions = .error fault := (conditions_eq_error_iff hd).mpr ⟨before, entry, after, hsplit, hbefore, hentry⟩
  exact ⟨h, fun key connective => (group_eq_error_iff hd).mpr (Or.inl h)⟩

/-- Among the items of an array, each of which is read under its own position, the first refused one decides. -/
theorem error_of_item {before after : List Document} {item : Document}
    (hbefore : ∀ i earlier, before[i]? = some earlier → (group (Decimal.text (i : Nat)) none earlier).isOk = true)
    (hitem : group (Decimal.text before.length) none item = .error fault) :
    (array (before ++ item :: after)).conditions = .error fault := by
  have hsplit : (array (before ++ item :: after)).entries = (array before).entries ++
      (Decimal.text before.length, item) ::
        (after.zipIdx (before.length + 1)).map fun item => (Decimal.text item.2, item.1) := by
    rw [entries, List.zipIdx_append, List.zipIdx_cons, List.map_append, List.map_cons, entries, Nat.zero_add]
  refine (error_of_entry hsplit (fun earlier hearlier => ?_) ((entryCondition_position _ item).trans hitem)).1
  obtain ⟨⟨earlier, i⟩, hmem, rfl⟩ := List.mem_map.mp hearlier
  rw [entryCondition_position]
  exact hbefore i earlier (List.mem_zipIdx_iff_getElem?.mp hmem)

/-! ### All levels -/

theorem entryCondition_of_refused (h : RefusedEntry entry fault) : entryCondition entry = .error fault := by
  cases h with
  | @notAGroup key content hkey hcontent =>
    obtain ⟨connective, hentry⟩ := entryCondition_of_groupKey hkey content
    rw [hentry, group_eq_notAGroup hcontent]
  | @empty key content hkey hempty =>
    obtain ⟨connective, hentry⟩ := entryCondition_of_groupKey hkey content
    rw [hentry]
    exact (group_eq_error_iff (isEmpty_iff.mp hempty).1).mpr (Or.inr ⟨hempty, rfl⟩)
  | field hkey hfield => rw [entryCondition_of_not_groupKey hkey, fieldCondition_eq_error_iff.mpr hfield]

theorem Reaches.error (h : d.Reaches entry) (hentry : entryCondition entry = .error fault) :
    d.conditions = .error fault ∧ ∀ key connective, group key connective d = .error fault := by
  induction h with
  | here hsplit hbefore => exact error_of_entry hsplit hbefore hentry
  | @inside d inner key before after entry hsplit hbefore hkey _ ih =>
    obtain ⟨connective, hgroup⟩ := entryCondition_of_groupKey hkey inner
    exact error_of_entry hsplit hbefore (hgroup.trans ((ih hentry).2 key connective))

theorem exists_reaches (hd : d.IsGroup) (h : d.conditions = .error fault) :
    ∃ entry, d.Reaches entry ∧ RefusedEntry entry fault := by
  induction d using entries_induction with
  | step d ih =>
    obtain ⟨before, ⟨key, content⟩, after, hsplit, hbefore, hentry⟩ := (conditions_eq_error_iff hd).mp h
    have hmem : (key, content) ∈ d.entries := hsplit ▸ List.mem_append_cons_self
    -- The first refused entry is the innermost one, unless it is a group that is refused for an entry of its own.
    by_cases hkey : GroupKey key
    · obtain ⟨connective, hgroup⟩ := entryCondition_of_groupKey hkey content
      rw [hgroup] at hentry
      by_cases hcontent : content.IsGroup
      · rcases (group_eq_error_iff hcontent).mp hentry with hinner | ⟨hempty, rfl⟩
        · obtain ⟨entry, hreaches, hrefused⟩ := ih _ hmem hcontent hinner
          exact ⟨entry, .inside hsplit hbefore hkey hreaches, hrefused⟩
        · exact ⟨_, .here hsplit hbefore, .empty hkey hempty⟩
      · rw [group_eq_notAGroup hcontent] at hentry
        cases hentry
        exact ⟨_, .here hsplit hbefore, .notAGroup hkey hcontent⟩
    · rw [entryCondition_of_not_groupKey hkey, fieldCondition_eq_error_iff] at hentry
      exact ⟨_, .here hsplit hbefore, .field hkey hentry⟩

theorem refused_iff : d.conditions = .error fault ↔ d.Refused fault := by
  constructor
  · intro h
    by_cases hd : d.IsGroup
    · obtain ⟨entry, hreaches, hrefused⟩ := exists_reaches hd h
      exact .entry hreaches hrefused
    · cases d with
      | null => cases h
      | array items => exact absurd .array hd
      | object members => exact absurd .object hd
      | _ =>
        cases h
        exact .root hd nofun
  · intro h
    cases h with
    | root hd hnull =>
      cases d with
      | null => exact absurd rfl hnull
      | array items => exact absurd .array hd
      | object members => exact absurd .object hd
      | _ => rfl
    | entry hreaches hrefused => exact (hreaches.error (entryCondition_of_refused hrefused)).1

/-- The fault of a document by its first refused entry: at one level, for an item at its position, through all levels,
    and down to the rules for a field. -/
structure FirstFaultDecides (d : Document) : Prop where
  level : ∀ before entry after fault, d.entries = before ++ entry :: after →
    (∀ earlier ∈ before, (entryCondition earlier).isOk = true) → entryCondition entry = .error fault →
    d.conditions = .error fault ∧ ∀ key connective, group key connective d = .error fault
  item : ∀ before item after fault, d = .array (before ++ item :: after) →
    (∀ i earlier, before[i]? = some earlier → (group (Decimal.text (i : Nat)) none earlier).isOk = true) →
    group (Decimal.text before.length) none item = .error fault → d.conditions = .error fault
  nested : ∀ entry fault, d.Reaches entry → entryCondition entry = .error fault → d.conditions = .error fault
  refused : ∀ fault, d.conditions = .error fault ↔ d.Refused fault
  field : ∀ field content fault, fieldCondition field content = .error fault ↔ RefusedField field content fault

/-- The fault of a document is that of its first refused entry, at each level and through all of them. It is found by
    the rules for documents, groups and fields alone, whatever stands in front of the entry or behind it. -/
theorem conditions_first_fault (d : Document) : FirstFaultDecides d where
  level _ _ _ _ hsplit hbefore hentry := error_of_entry hsplit hbefore hentry
  item _ _ _ _ hd hbefore hitem := hd ▸ error_of_item hbefore hitem
  nested _ _ hreaches hentry := (hreaches.error hentry).1
  refused _ := refused_iff
  field _ _ _ := fieldCondition_eq_error_iff

/-- A range of three items, the second of them an object, in an array in a disjunction: it is refused for this item,
    and neither for the number of its items nor for the nameless field behind it. -/
theorem conditions_first_fault_nested :
    (object [("a", .null), ("or", .array [.object [("b", .null)],
      .object [("c", .object [("between", .array [.null, .object [], .null])]), ("", .null)]])]).conditions =
        .error (.invalidOperand "c" "BETWEEN" .scalars .object) := by
  have hitem : RefusedMembers "c" "BETWEEN" (.array [.null, .object [], .null])
      (.invalidOperand "c" "BETWEEN" .scalars .object) :=
    @RefusedMembers.item "c" "BETWEEN" [.null] [.null] (.object []) (List.forall_mem_singleton.mpr .null) nofun
  have hfield : fieldCondition "c" (.object [("between", .array [.null, .object [], .null])]) =
      .error (.invalidOperand "c" "BETWEEN" .scalars .object) :=
    ((conditions_first_fault .null).field _ _ _).mpr
      (.content (by decide) (.modifier (.range (by decide +kernel) (.item hitem))))
  have hreaches := @Reaches.here (.object [("c", .object [("between", .array [.null, .object [], .null])]),
    ("", .null)]) [] [("", .null)] _ rfl nofun
  have hgroup := @Reaches.inside (.array [.object [("b", .null)], _]) _ (Decimal.text (1 : Nat))
    [(Decimal.text (0 : Nat), .object [("b", .null)])] [] _ rfl (by decide +kernel) (groupKey_position 1) hreaches
  exact (conditions_first_fault _).nested _ _
    (@Reaches.inside _ _ "or" [("a", .null)] [] _ rfl (by decide +kernel) (by decide +kernel) hgroup)
    ((entryCondition_of_not_groupKey (by decide +kernel)).trans hfield)

end Document
end Criteria
