import Criteria.Proofs.Equality
import Criteria.Proofs.OperandFault

/-! The operand of a comparison. First items are taken from it until there is no array with an item any more, which
    comes to an end in every document. The node where this ends decides what the comparison is read as: a value, an
    operand that is missing, or one that stands for no value. So an operand may be put in front of any list. -/

namespace Criteria
namespace Document

/-- Taking first items leads from the operand to the node, and no further. -/
structure EndsAt (operand node : Document) : Prop where
  leads : LeadsTo node operand
  last : ∀ item rest, node ≠ .array (item :: rest)

/-- What a comparison is read as, by the node where its operand ends. -/
inductive Compared (field token : String) : Document → Except Fault Condition → Prop
  | value {node : Document} {v : Value} : node.toValue? = some v →
      Compared field token node (.ok (.field field (.compare (some token) v)))
  | missing : Compared field token (.array []) (.error (.missingOperand field (Text.keyword token)))
  | unreadable {node : Document} : node.shape = .object ∨ node.shape = .largeInteger →
      Compared field token node (.error (.invalidOperand field (Text.keyword token) .scalar node.shape))

variable {operand node other : Document} {field token : String}

theorem endsAt_self (h : ∀ item rest, node ≠ .array (item :: rest)) : EndsAt node node := ⟨.self, h⟩

theorem EndsAt.wrapped (h : EndsAt operand node) (junk : List Document) : EndsAt (.array (operand :: junk)) node :=
  ⟨.first h.leads, h.last⟩

theorem exists_endsAt (operand : Document) : ∃ node, EndsAt operand node := by
  induction operand with
  | array items ih =>
    cases items with
    | nil => exact ⟨_, endsAt_self nofun⟩
    | cons item rest =>
      obtain ⟨node, h⟩ := ih item List.mem_cons_self
      exact ⟨node, h.wrapped rest⟩
  | _ => exact ⟨_, endsAt_self nofun⟩

theorem EndsAt.eq (h : EndsAt operand node) (hother : EndsAt operand other) : node = other := by
  obtain ⟨hleads, hlast⟩ := h
  obtain ⟨hleads', hlast'⟩ := hother
  -- Both descents take the same first item, unless one of them has come to its end.
  induction hleads with
  | self =>
    cases hleads' with
    | self => rfl
    | first => exact absurd rfl (hlast _ _)
  | first _ ih =>
    cases hleads' with
    | self => exact absurd rfl (hlast' _ _)
    | first hleads' => exact ih hleads'

theorem scalar_congr (h : operand.firstLeaf? = other.firstLeaf?) (field modifier : String) :
    scalar field modifier operand = scalar field modifier other := by
  rw [scalar, scalar, h]

theorem firstLeaf?_of_not_array (h : ∀ items, node ≠ .array items) : node.firstLeaf? = some node := by
  cases node with
  | array items => exact absurd rfl (h items)
  | _ => rfl

theorem exists_items_of_shape (h : node.shape = .array) : ∃ items, node = .array items := by
  match node with
  | .array items => exact ⟨items, rfl⟩
  | .number (.integer n _ _) =>
    rw [shape] at h
    split at h <;> cases h
  | .null | .bool _ | .number (.double _ _) | .string _ | .object _ => cases h

theorem modified_of_comparison (h : Modifier.ofToken token = .comparison) (field : String) (operand : Document) :
    modified field token operand = (scalar field (Text.keyword token) operand).map (.compare (some token)) := by
  rw [modified, h]
  cases scalar field (Text.keyword token) operand <;> rfl

theorem EndsAt.compared (h : EndsAt operand node) (htoken : Modifier.ofToken token = .comparison) (field : String) :
    Compared field token node ((modified field token operand).map (.field field)) := by
  rw [modified_of_comparison htoken, scalar_congr h.leads.firstLeaf?_congr]
  by_cases harray : ∃ items, node = .array items
  · obtain ⟨items, rfl⟩ := harray
    cases items with
    | nil => exact .missing
    | cons item rest => exact absurd rfl (h.last item rest)
  · have hleaf : node.firstLeaf? = some node := firstLeaf?_of_not_array fun items hitems => harray ⟨items, hitems⟩
    cases hvalue : node.toValue? with
    | some v =>
      rw [scalar_of_firstLeaf? hleaf hvalue]
      exact .value hvalue
    | none =>
      rw [scalar_eq_error_iff.mpr (.unreadable hleaf (not_readable_iff.mpr hvalue))]
      refine .unreadable ?_
      rcases toValue?_eq_none_iff.mp hvalue with hshape | hshape | hshape
      · exact Or.inr hshape
      · exact absurd (exists_items_of_shape hshape) harray
      · exact Or.inl hshape

theorem EndsAt.fieldCondition_eq (h : EndsAt operand node) (hother : EndsAt other node)
    (htoken : Modifier.ofToken token = .comparison) (field : String) :
    fieldCondition field (.object [(token, other)]) = fieldCondition field (.object [(token, operand)]) := by
  have hleaf : other.firstLeaf? = operand.firstLeaf? :=
    hother.leads.firstLeaf?_congr.trans h.leads.firstLeaf?_congr.symm
  rw [fieldCondition, fieldCondition, fieldTest, fieldTest, modified_of_comparison htoken, modified_of_comparison htoken,
    scalar_congr hleaf]

/-- Taking first items from the operand of a comparison ends at one node, and the comparison depends on the operand
    through this node alone. So the operand can as well be the first item of a list, in whatever document. -/
theorem compared_endsAt (hbetween : Text.keyword token ≠ "BETWEEN")
    (hset : ∀ relation : SetRelation, Text.phrase token ≠ relation.words) (hlike : Text.keyword token ≠ "LIKE")
    (field : String) (operand : Document) :
    (∀ junk, fieldCondition field (.object [(token, .array (operand :: junk))]) =
      fieldCondition field (.object [(token, operand)])) ∧
    (∀ junk, ¬GroupKey field → ∀ K : Surroundings,
      (K.fill (field, .object [(token, .array (operand :: junk))])).conditions =
        (K.fill (field, .object [(token, operand)])).conditions) ∧
    ∃ node, (∀ other, EndsAt operand other ↔ other = node) ∧
      (∀ other, EndsAt other node →
        fieldCondition field (.object [(token, other)]) = fieldCondition field (.object [(token, operand)])) ∧
      Compared field token node ((modified field token operand).map (.field field)) ∧
      (Text.trim field ≠ "" →
        fieldCondition field (.object [(token, operand)]) = (modified field token operand).map (.field field)) := by
  have htoken : Modifier.ofToken token = .comparison := Modifier.ofToken_of_other hbetween hset hlike
  obtain ⟨node, hnode⟩ := exists_endsAt operand
  have hwrapped : ∀ junk, fieldCondition field (.object [(token, .array (operand :: junk))]) =
      fieldCondition field (.object [(token, operand)]) :=
    fun junk => hnode.fieldCondition_eq (hnode.wrapped junk) htoken field
  refine ⟨hwrapped, fun junk hkey K => ?_, node, fun other => ?_,
    fun other hother => hnode.fieldCondition_eq hother htoken field, hnode.compared htoken field, fun hname => ?_⟩
  · refine Surroundings.conditions_fill_congr ?_ K
    rw [entryCondition_of_not_groupKey hkey, entryCondition_of_not_groupKey hkey, hwrapped]
  · constructor
    · exact fun hother => hother.eq hnode
    · rintro rfl
      exact hnode
  · have hblank : Text.isBlankText field = false := Text.isBlankText_eq_false_iff.mpr hname
    rw [fieldCondition, hblank, fieldTest]
    cases modified field token operand <;> rfl

theorem compared_endsAt_nested :
    Text.keyword " =>= " ≠ "BETWEEN" ∧ (∀ relation : SetRelation, Text.phrase " =>= " ≠ relation.words) ∧
      Text.keyword " =>= " ≠ "LIKE" ∧ Text.trim "a" ≠ "" ∧ ¬GroupKey "a" ∧
      (∀ junk, (object [("or", .object [("a", .object [(" =>= ", .array (.array [.string "like"] :: junk))])])]).conditions =
        (object [("or", .object [("a", .object [(" =>= ", .array [.string "like"])])])]).conditions) ∧
      (∀ node, EndsAt (.array [.string "like"]) node ↔ node = .string "like") ∧
      fieldCondition "a" (.object [(" =>= ", .array [.string "like"])]) =
        .ok (.field "a" (.compare (some " =>= ") (.text "like"))) := by
  have hbetween : Text.keyword " =>= " ≠ "BETWEEN" := by decide +kernel
  have hset : ∀ relation : SetRelation, Text.phrase " =>= " ≠ relation.words := by
    intro relation
    cases relation <;> decide +kernel
  have hlike : Text.keyword " =>= " ≠ "LIKE" := by decide +kernel
  have hname : Text.trim "a" ≠ "" := by decide +kernel
  have hkey : ¬GroupKey "a" := by decide +kernel
  obtain ⟨-, hfill, node, hends, -, hcompared, hfield⟩ :=
    compared_endsAt hbetween hset hlike "a" (.array [.string "like"])
  obtain rfl : .string "like" = node := (hends _).mp ⟨.first .self, nofun⟩
  refine ⟨hbetween, hset, hlike, hname, hkey, fun junk => ?_, hends, ?_⟩
  · exact hfill junk hkey (.member [] "or" (some .or) (by decide +kernel) (.entry [] []) [])
  · rw [hfield hname]
    revert hcompared
    generalize (modified "a" " =>= " (.array [.string "like"])).map (Condition.field "a") = outcome
    rintro (hvalue | _ | ⟨hshape | hshape⟩)
    · cases hvalue
      rfl
    · cases hshape
    · cases hshape

end Document
end Criteria
