import Criteria.Proofs.FirstRefusal
import Criteria.Proofs.Surroundings

/-! What is true of a refused operand. The fault names a field of the document and the kind of a node in its content:
    the operand of a range that is no array, or a node that stands for no value. Which nodes stand for none is decided
    in one place and described in another, and both agree: such a node is an array, an object or a whole number of more
    than 63 bits. -/

namespace Criteria

namespace Text

/-- No blanks around the text and no small letters in it. -/
structure IsKeyword (s : String) : Prop where
  trimmed : trim s = s
  raised : ∀ c ∈ s.toList, c.isLower = false

theorem isKeyword_iff {s : String} : IsKeyword s ↔ trim s = s ∧ s.toList.all (fun c => !c.isLower) = true := by
  simp only [List.all_eq_true, Bool.not_eq_true']
  exact ⟨fun h => ⟨h.trimmed, h.raised⟩, fun h => ⟨h.1, h.2⟩⟩

instance (s : String) : Decidable (IsKeyword s) := decidable_of_iff _ isKeyword_iff.symm

theorem isKeyword_keyword (s : String) : IsKeyword (keyword s) where
  trimmed := trim_keyword s
  raised c hc := by
    rw [keyword, toList_toUpper] at hc
    obtain ⟨d, -, rfl⟩ := List.mem_map.mp hc
    exact isLower_toUpper d

end Text

theorem SetRelation.isKeyword_words (relation : SetRelation) : Text.IsKeyword relation.words := by
  cases relation <;> decide +kernel

namespace Document

/-- The node is the document or stands in it at some depth. -/
inductive Within (node : Document) : Document → Prop
  | self : Within node node
  | item {items : List Document} {item : Document} : item ∈ items → Within node item → Within node (.array items)
  | member {members : List (String × Document)} {entry : String × Document} : entry ∈ members →
      Within node entry.2 → Within node (.object members)

variable {d node content : Document}

theorem Within.trans (hnode : Within node d) (hd : Within d content) : Within node content := by
  induction hd with
  | self => exact hnode
  | item hitem _ ih => exact .item hitem ih
  | member hentry _ ih => exact .member hentry ih

theorem within_firstLeaf? {leaf : Document} (h : d.firstLeaf? = some leaf) : Within leaf d := by
  induction d with
  | array items ih =>
    cases items with
    | nil => cases h
    | cons item rest => exact .item List.mem_cons_self (ih item List.mem_cons_self h)
  | _ =>
    cases h
    exact .self

/-- A node stands for no value exactly if it is described as an array, an object or a number out of range. -/
theorem toValue?_eq_none_iff :
    d.toValue? = none ↔ d.shape = .largeInteger ∨ d.shape = .array ∨ d.shape = .object := by
  match d with
  | .number (.integer n _ _) =>
    rw [toValue?, shape]
    split <;> simp
  | .null | .bool _ | .number (.double _ _) | .string _ | .array _ | .object _ => simp [toValue?, shape]

/-! ### Blame -/

/-- The content of a field gives the node as the operand of a range, in either notation. -/
inductive RangeOperand (node : Document) : Document → Prop
  | member {token : String} : Text.keyword token = "BETWEEN" → RangeOperand node (.object [(token, node)])
  | listed {token : String} : Text.keyword token = "BETWEEN" → RangeOperand node (.array [.string token, node])

/-- The node in the content of a field bears out what is said of the operand: what was expected and what was found. -/
structure Blames (content : Document) (expected : Expected) (found : Shape) (node : Document) : Prop where
  within : Within node content
  shape : node.shape = found
  range : expected = .pair → RangeOperand node content ∧ ∀ items, node ≠ .array items
  value : expected ≠ .pair → node.toValue? = none

/-- A fault about an operand names the field and a keyword, and blames a node of the content. -/
def Truthful (field : String) (content : Document) : Fault → Prop
  | .invalidOperand name modifier expected found =>
    name = field ∧ Text.IsKeyword modifier ∧ ∃ node, Blames content expected found node
  | _ => True

variable {field modifier token : String} {fault : Fault}

theorem truthful_of_not_readable {expected : Expected} (hexpected : expected ≠ .pair)
    (hmodifier : Text.IsKeyword modifier) (hwithin : Within node content) (hnode : ¬Readable node) :
    Truthful field content (.invalidOperand field modifier expected node.shape) :=
  ⟨rfl, hmodifier, node, hwithin, rfl, fun hpair => absurd hpair hexpected, fun _ => not_readable_iff.mp hnode⟩

theorem RefusedLeaf.truthful (h : RefusedLeaf field modifier d fault) (hmodifier : Text.IsKeyword modifier)
    (hd : Within d content) : Truthful field content fault := by
  cases h with
  | missing => trivial
  | unreadable hleaf hnode =>
    exact truthful_of_not_readable nofun hmodifier ((within_firstLeaf? hleaf).trans hd) hnode

theorem RefusedMembers.truthful (h : RefusedMembers field modifier d fault) (hmodifier : Text.IsKeyword modifier)
    (hd : Within d content) : Truthful field content fault := by
  cases h with
  | item _ hitem =>
    exact truthful_of_not_readable nofun hmodifier ((Within.item List.mem_append_cons_self .self).trans hd) hitem
  | single _ hnode => exact truthful_of_not_readable nofun hmodifier hd hnode

theorem RefusedBounds.truthful (h : RefusedBounds field d fault) (hd : Within d content)
    (hrange : RangeOperand d content) : Truthful field content fault := by
  have hbetween : Text.IsKeyword "BETWEEN" := by decide +kernel
  cases h with
  | shape hd' => exact ⟨rfl, hbetween, d, hd, rfl, fun _ => ⟨hrange, hd'⟩, fun hpair => absurd rfl hpair⟩
  | item h => exact h.truthful hbetween hd
  | arity => trivial

theorem RefusedOperand.truthful (h : RefusedOperand field token d fault) (hd : Within d content)
    (hrange : Text.keyword token = "BETWEEN" → RangeOperand d content) : Truthful field content fault := by
  cases h with
  | range htoken h => exact h.truthful hd (hrange htoken)
  | set _ h => exact h.truthful (SetRelation.isKeyword_words _) hd
  | pattern _ hnode => exact truthful_of_not_readable nofun (by decide +kernel) hd hnode
  | comparison _ _ _ h => exact h.truthful (Text.isKeyword_keyword token) hd

theorem RefusedContent.truthful (h : RefusedContent field content fault) : Truthful field content fault := by
  have hequals : Text.IsKeyword "=" := by decide +kernel
  cases h with
  | count => trivial
  | modifier h => exact h.truthful (.member List.mem_cons_self .self) .member
  | listed _ h => exact h.truthful (.item (List.mem_cons_of_mem _ List.mem_cons_self) .self) .listed
  | list _ h => exact h.truthful hequals .self
  | scalar _ _ hnode => exact truthful_of_not_readable nofun hequals .self hnode

theorem Reaches.mem_fields {entry : String × Document} (h : d.Reaches entry) (hkey : ¬GroupKey entry.1) :
    entry ∈ d.fields := by
  induction h with
  | @here d _ _ entry hsplit =>
    -- The entry is a field of the group it stands in.
    have hmem : entry ∈ d.entries := hsplit ▸ List.mem_append_cons_self
    rw [fields_eq_flatMap, List.mem_flatMap]
    exact ⟨entry, hmem, by rw [if_neg hkey]; exact List.mem_singleton_self entry⟩
  | @inside d inner key _ _ _ hsplit _ hgroup _ ih =>
    have hmem : (key, inner) ∈ d.entries := hsplit ▸ List.mem_append_cons_self
    rw [fields_eq_flatMap, List.mem_flatMap]
    exact ⟨(key, inner), hmem, by rw [if_pos hgroup]; exact ih hkey⟩

theorem exists_refusedContent {expected : Expected} {found : Shape}
    (h : d.conditions = .error (.invalidOperand field modifier expected found)) :
    ∃ entry ∈ d.fields, RefusedContent entry.1 entry.2 (.invalidOperand field modifier expected found) := by
  obtain ⟨entry, hreaches, hrefused⟩ : ∃ entry, d.Reaches entry ∧
      RefusedEntry entry (.invalidOperand field modifier expected found) := by
    cases refused_iff.mp h with
    | entry hreaches hrefused => exact ⟨_, hreaches, hrefused⟩
  -- A group is refused for its shape or its emptiness and a nameless field for its name, so only content is left.
  cases hrefused with
  | field hkey hfield =>
    cases hfield with
    | content _ hcontent => exact ⟨_, hreaches.mem_fields hkey, hcontent⟩

/-! ### Whole numbers -/

/-- Wherever a field takes a scalar, it takes the node for the value, and as the content of a field the node is taken
    so at any place of any document. -/
structure AcceptedAs (node : Document) (v : Value) : Prop where
  value : node.toValue? = some v
  content : ∀ field, fieldTest field node = .ok (.compare none v)
  leaf : ∀ field modifier operand, operand.firstLeaf? = some node → scalar field modifier operand = .ok v
  item : ∀ field modifier, member field modifier node = .ok v
  single : ∀ field modifier, members field modifier node = .ok [v]
  pattern : ∀ field token, Text.keyword token = "LIKE" → modified field token node = .ok (.like v)
  document : ∀ field, Text.trim field ≠ "" → ¬GroupKey field → ∀ K : Surroundings,
    (K.fill (field, node)).conditions = K.conditions.map (·.fill (.field field (.compare none v)))

/-- Wherever a field takes a scalar, it refuses the node for its kind, and a document is refused as soon as reading gets
    to a field with the node as its content. -/
structure RefusedFor (node : Document) (found : Shape) : Prop where
  value : node.toValue? = none
  content : ∀ field, fieldTest field node = .error (.invalidOperand field "=" .scalar found)
  leaf : ∀ field modifier operand, operand.firstLeaf? = some node →
    scalar field modifier operand = .error (.invalidOperand field modifier .scalar found)
  item : ∀ field modifier, member field modifier node = .error (.invalidOperand field modifier .scalars found)
  single : ∀ field modifier, members field modifier node = .error (.invalidOperand field modifier .scalars found)
  pattern : ∀ field token, Text.keyword token = "LIKE" →
    modified field token node = .error (.invalidOperand field "LIKE" .pattern found)
  document : ∀ field, Text.trim field ≠ "" → ¬GroupKey field → ∀ d : Document, d.Reaches (field, node) →
    d.conditions = .error (.invalidOperand field "=" .scalar found)

theorem acceptedAs_of_toValue? {v : Value} (h : node.toValue? = some v) : AcceptedAs node v where
  value := h
  content := fieldTest_of_toValue? h
  leaf field modifier _ hleaf := scalar_of_firstLeaf? hleaf h field modifier
  item := member_of_toValue? h
  single := members_of_toValue? h
  pattern field token htoken := by simp only [modified, Modifier.ofToken_of_like htoken, h]
  document field hname hkey K :=
    Surroundings.conditions_fill (entryCondition_of_fieldTest hname hkey (fieldTest_of_toValue? h field))

theorem refusedFor_shape (h : ¬Readable node) (harray : ∀ items, node ≠ .array items)
    (hobject : ∀ members, node ≠ .object members) : RefusedFor node node.shape where
  value := not_readable_iff.mp h
  content _ := fieldTest_eq_error_iff.mpr (.scalar harray hobject h)
  leaf _ _ _ hleaf := scalar_eq_error_iff.mpr (.unreadable hleaf h)
  item _ _ := member_eq_error_iff.mpr ⟨h, rfl⟩
  single _ _ := members_eq_error_iff.mpr (.single harray h)
  pattern _ _ htoken := modified_eq_error_iff.mpr (.pattern htoken h)
  document _ hname hkey _ hreaches :=
    (hreaches.error (entryCondition_of_refused (.field hkey (.content hname (.scalar harray hobject h))))).1

theorem acceptedAs_integer {n : Int} {lower : -2 ^ 63 ≤ n} {upper : n < 2 ^ 64} (h : n < 2 ^ 63) :
    ∃ i : Int64, i.toInt = n ∧ AcceptedAs (.number (.integer n lower upper)) (.int i) :=
  ⟨.ofInt n, Int64.toInt_ofInt_of_le lower h, acceptedAs_of_toValue? (by rw [toValue?, if_pos h])⟩

theorem refusedFor_integer {n : Int} {lower : -2 ^ 63 ≤ n} {upper : n < 2 ^ 64} (h : 2 ^ 63 ≤ n) :
    RefusedFor (.number (.integer n lower upper)) .largeInteger := by
  have hshape : shape (.number (.integer n lower upper)) = .largeInteger := by rw [shape, if_neg (Int.not_lt.mpr h)]
  have hnode : ¬Readable (.number (.integer n lower upper)) :=
    not_readable_iff.mpr (toValue?_eq_none_iff.mpr (Or.inl hshape))
  exact hshape ▸ refusedFor_shape hnode (fun items h => by cases h) (fun members h => by cases h)

/-- What a document is refused for as an operand is there: a field of the name, with a node of the kind that was found,
    which is the operand of a range or stands for no value. Whole numbers are taken for what they are, and refused
    where they need more than 63 bits. -/
theorem conditions_invalidOperand (d : Document) :
    (∀ field modifier expected found, d.conditions = .error (.invalidOperand field modifier expected found) →
      (∃ content node, (field, content) ∈ d.fields ∧ Blames content expected found node) ∧
      Text.IsKeyword modifier ∧
      (expected ≠ .pair → found.name ∉ ["null", "bool", "number", "string"])) ∧
    (∀ n lower upper, n < 2 ^ 63 → ∃ i : Int64, i.toInt = n ∧ AcceptedAs (.number (.integer n lower upper)) (.int i)) ∧
    (∀ n lower upper, 2 ^ 63 ≤ n → RefusedFor (.number (.integer n lower upper)) .largeInteger) ∧
    Shape.largeInteger.name = "integer out of range" := by
  refine ⟨fun field modifier expected found h => ?_, fun _ _ _ => acceptedAs_integer, fun _ _ _ => refusedFor_integer,
    rfl⟩
  obtain ⟨⟨key, content⟩, hmem, hcontent⟩ := exists_refusedContent h
  obtain ⟨rfl, hmodifier, node, hblames⟩ := hcontent.truthful
  refine ⟨⟨content, node, hmem, hblames⟩, hmodifier, fun hpair => ?_⟩
  rcases toValue?_eq_none_iff.mp (hblames.value hpair) with hshape | hshape | hshape <;>
    (rw [← hblames.shape, hshape]; decide)

/-- A set with a number out of range in a group of an array, a range that is given a truth value, and the greatest
    number of 63 bits next to its successor. -/
theorem conditions_invalidOperand_nested :
    (∃ content node, ("a", content) ∈ (array [.object [("a", .array [.string " any",
        .array [.null, .number (.integer (2 ^ 63) (by decide) (by decide))]])]]).fields ∧
      Blames content .scalars .largeInteger node) ∧
    (∃ content node, ("b", content) ∈ (object [("or", .object [("b", .object [("between", .bool true)])])]).fields ∧
      Blames content .pair .bool node) ∧
    (∃ i : Int64, i.toInt = 2 ^ 63 - 1 ∧
      AcceptedAs (.number (.integer (2 ^ 63 - 1) (by decide) (by decide))) (.int i)) ∧
    RefusedFor (.number (.integer (2 ^ 63) (by decide) (by decide))) .largeInteger := by
  have hset : (array [.object [("a", .array [.string " any",
      .array [.null, .number (.integer (2 ^ 63) (by decide) (by decide))]])]]).conditions =
      .error (.invalidOperand "a" "ANY" .scalars .largeInteger) := Outcome.fault?_eq_some_iff.mp (by decide +kernel)
  have hrange : (object [("or", .object [("b", .object [("between", .bool true)])])]).conditions =
      .error (.invalidOperand "b" "BETWEEN" .pair .bool) := Outcome.fault?_eq_some_iff.mp (by decide +kernel)
  obtain ⟨hmember, -⟩ := (conditions_invalidOperand _).1 _ _ _ _ hset
  obtain ⟨hpair, haccepted, hrefused, -⟩ := conditions_invalidOperand
    (object [("or", .object [("b", .object [("between", .bool true)])])])
  exact ⟨hmember, (hpair _ _ _ _ hrange).1, haccepted _ _ _ (by decide), hrefused _ _ _ (by decide)⟩

end Document
end Criteria
