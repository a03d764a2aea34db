import Criteria.Proofs.Entries
import Criteria.Proofs.Expressible

/-! Numbered groups. An array that stands for a group can be written as an object with the positions of its items as
    keys, in the root and in every group at any depth. The same conditions are read from it, or the same fault is
    found, and no two keys are alike. -/

namespace Criteria
namespace Document

mutual

/-- The document with an object of numbered members for each array that is a group. Fields are left as they are. -/
def numbered : Document → Document
  | .array items => .object (numberedItems 0 items)
  | .object members => .object (numberedMembers members)
  | .null => .null
  | .bool b => .bool b
  | .number n => .number n
  | .string s => .string s

/-- The items of an array as members, named by their positions from `position` on. -/
def numberedItems (position : Nat) : List Document → List (String × Document)
  | [] => []
  | item :: rest => (Decimal.text position, item.numbered) :: numberedItems (position + 1) rest

/-- The members with the contents of groups numbered and the contents of fields as they are. -/
def numberedMembers : List (String × Document) → List (String × Document)
  | [] => []
  | (key, content) :: rest => (key, if GroupKey key then content.numbered else content) :: numberedMembers rest

end

/-- One entry of a group: its content is numbered if the entry is itself a group. -/
def numberedEntry (entry : String × Document) : String × Document :=
  (entry.1, if GroupKey entry.1 then entry.2.numbered else entry.2)

theorem numberedItems_eq_map (items : List Document) (position : Nat) : numberedItems position items =
    ((items.zipIdx position).map fun item => (Decimal.text item.2, item.1)).map numberedEntry := by
  induction items generalizing position with
  | nil => rfl
  | cons item rest ih =>
    rw [numberedItems, ih, List.zipIdx_cons, List.map_cons, List.map_cons, numberedEntry,
      if_pos (groupKey_position position)]

theorem numberedMembers_eq_map (members : List (String × Document)) :
    numberedMembers members = members.map numberedEntry := by
  induction members with
  | nil => rfl
  | cons entry rest ih => rw [numberedMembers, ih, List.map_cons, numberedEntry]

theorem numbered_of_isGroup {d : Document} (h : d.IsGroup) : d.numbered = .object (d.entries.map numberedEntry) := by
  cases h with
  | array => rw [numbered, numberedItems_eq_map, entries]
  | object => rw [numbered, numberedMembers_eq_map, entries]

theorem numbered_of_not_isGroup {d : Document} (h : ¬d.IsGroup) : d.numbered = d := by
  cases d with
  | array items => exact absurd .array h
  | object members => exact absurd .object h
  | _ => rfl

theorem group_numbered {d : Document} (h : d.numbered.conditions = d.conditions) (key : String)
    (connective : Option Connective) : group key connective d.numbered = group key connective d := by
  by_cases hd : d.IsGroup
  · rw [group_eq_bind hd, ← h, numbered_of_isGroup hd]
    rfl
  · rw [numbered_of_not_isGroup hd]

/-- What is read from a document, conditions or fault, is read from its numbered form as well. -/
theorem conditions_numbered (d : Document) : d.numbered.conditions = d.conditions := by
  induction d using entries_induction with
  | step d ih =>
    by_cases hd : d.IsGroup
    · have hentry : ∀ entry ∈ d.entries, entryCondition (numberedEntry entry) = entryCondition entry := by
        intro entry hentry
        -- A field keeps its content; only the content of a group is numbered, and that is read as before.
        rcases keyRole_cases entry.1 with ⟨hkey, connective, hrole⟩ | ⟨hkey, -⟩
        · rw [numberedEntry, if_pos hkey]
          simp only [entryCondition, hrole]
          exact group_numbered (ih entry hentry) entry.1 connective
        · rw [numberedEntry, if_neg hkey]
      rw [conditions_eq_mapM hd, numbered_of_isGroup hd, conditions_eq_mapM .object, entries, List.mapM_map]
      exact Outcome.mapM_congr hentry
    · rw [numbered_of_not_isGroup hd]

theorem nodup_positions (items : List Document) : ((array items).entries.map Prod.fst).Nodup := by
  have hpositions : (array items).entries.map Prod.fst = (items.zipIdx.map Prod.snd).map fun n : Nat => Decimal.text n := by
    rw [entries, List.map_map, List.map_map]
    rfl
  rw [hpositions, List.zipIdx_map_snd]
  exact List.pairwise_map.mpr (List.Pairwise.imp (fun hne htext => hne (Decimal.text_injective htext)) List.nodup_range')

theorem DistinctKeys.of_entries {d : Document} (h : d.DistinctKeys) :
    (d.entries.map Prod.fst).Nodup ∧ ∀ entry ∈ d.entries, entry.2.DistinctKeys := by
  cases h with
  | @array items hitems =>
    refine ⟨nodup_positions items, fun entry hentry => ?_⟩
    obtain ⟨item, hitem, rfl⟩ := List.mem_map.mp hentry
    exact hitems item.1 (List.fst_mem_of_mem_zipIdx hitem)
  | object hkeys hcontents => exact ⟨hkeys, hcontents⟩
  | _ => exact ⟨List.nodup_nil, nofun⟩

/-- No two positions are alike, so numbering brings no key about twice. -/
theorem distinctKeys_numbered {d : Document} (h : d.DistinctKeys) : d.numbered.DistinctKeys := by
  induction d using entries_induction with
  | step d ih =>
    by_cases hd : d.IsGroup
    · obtain ⟨hkeys, hcontents⟩ := h.of_entries
      rw [numbered_of_isGroup hd]
      refine .object ?_ fun entry hentry => ?_
      · rw [List.map_map]
        exact hkeys
      · obtain ⟨written, hwritten, rfl⟩ := List.mem_map.mp hentry
        rw [numberedEntry]
        split
        · exact ih written hwritten (hcontents written hwritten)
        · exact hcontents written hwritten
    · rwa [numbered_of_not_isGroup hd]

end Document
end Criteria
