import Criteria.Proofs.Items
import Criteria.Proofs.Parity

/-! Values inlined. The debugging text of a tree is filled in from left to right, over its whole text and all of its
    values. Where every piece has one placeholder for each of its values and leaves no literal open, each piece is
    filled with its own values, so the debugging text shows every value where its condition stands. -/

namespace Criteria
open Text

namespace Inline

theorem fill_nil (quoted : Bool) (cs : List Char) : fill quoted cs [] = cs := by
  induction cs generalizing quoted with
  | nil => rfl
  | cons c cs ih =>
    simp only [fill, ih, ite_self]

theorem fill_mark (cs : List Char) (v : Value) (vs : List Value) :
    fill false ('?' :: cs) (v :: vs) = Dialect.generic.literalChars v ++ fill false cs vs := rfl

/-- What is no placeholder is kept, and a quote opens or closes a literal. -/
theorem fill_kept {quoted : Bool} {c : Char} (h : ¬(c = '?' ∧ quoted = false)) (cs : List Char) (vs : List Value) :
    fill quoted (c :: cs) vs = c :: fill (if c = '\'' then !quoted else quoted) cs vs := by
  have hcond : ¬(!(if c = '\'' then !quoted else quoted) && decide (c = '?')) = true := by
    intro hmark
    obtain ⟨hclosed, hc⟩ := Bool.and_eq_true_iff.mp hmark
    obtain rfl := of_decide_eq_true hc
    exact h ⟨rfl, by simpa using hclosed⟩
  cases vs <;> rw [fill, if_neg hcond]

/-- A front is filled with as many values as it has placeholders, and the rest with the values behind these. -/
theorem fill_append_split (quoted : Bool) (a b : List Char) (vs : List Value) : fill quoted (a ++ b) vs =
    fill quoted a (vs.take (marksOutside quoted a)) ++
      fill (quotedAfter quoted a) b (vs.drop (marksOutside quoted a)) := by
  induction a generalizing quoted vs with
  | nil => rfl
  | cons c a ih =>
    rw [List.cons_append]
    -- Only a placeholder outside of literals uses up a value; every other character is kept by both sides.
    by_cases hmark : c = '?' ∧ quoted = false
    · obtain ⟨rfl, rfl⟩ := hmark
      cases vs with
      | nil => simp only [List.take_nil, List.drop_nil, fill_nil, List.cons_append]
      | cons v vs =>
        rw [fill_mark, marksOutside_mark, List.take_succ_cons, List.drop_succ_cons, fill_mark, ih, List.append_assoc]
        rfl
    · rw [fill_kept hmark, fill_kept hmark, marksOutside_kept hmark, quotedAfter, ih, List.cons_append]

theorem fill_take (quoted : Bool) (cs : List Char) (vs : List Value) :
    fill quoted cs (vs.take (marksOutside quoted cs)) = fill quoted cs vs := by
  have h := fill_append_split quoted cs [] vs
  rw [List.append_nil] at h
  exact (h.trans (List.append_nil _)).symm

/-- A front with one placeholder for each of its values is filled with these, and the rest with the others. -/
theorem fill_append {quoted : Bool} {a : List Char} {vs : List Value} (h : marksOutside quoted a = vs.length)
    (b : List Char) (ws : List Value) :
    fill quoted (a ++ b) (vs ++ ws) = fill quoted a vs ++ fill (quotedAfter quoted a) b ws := by
  rw [fill_append_split, h, List.take_left, List.drop_left]

end Inline

namespace Fragment

/-- The text of a piece with its values inlined. -/
def display (piece : Fragment) : String := inlined piece.sql piece.params

theorem display_ofText (s : String) : (ofText s).display = s := by
  rw [display, inlined, params_ofText, Inline.fill_nil, sql_ofText, String.ofList_toList]

theorem display_append {a : Fragment} (ha : a.Paired) (b : Fragment) : (a ++ b).display = a.display ++ b.display := by
  rw [display, inlined, sql_append, String.toList_append, params_append, Inline.fill_append ha.2,
    quotedAfter_of_even ha.1, String.ofList_append]
  rfl

theorem display_placeholder (v : Value) : display ⟨"?", [v]⟩ = Dialect.generic.literal v := by
  have hmark : "?".toList = ['?'] := by decide
  rw [display, inlined, hmark, Inline.fill_mark, Inline.fill_nil, List.append_nil]
  rfl

theorem display_join {separator : String} (hsep : Neutral separator) {pieces : List Fragment}
    (h : ∀ piece ∈ pieces, piece.Paired) :
    (join separator pieces).display = separator.intercalate (pieces.map display) := by
  induction pieces with
  | nil => exact display_ofText ""
  | cons a rest ih =>
    obtain ⟨ha, hrest⟩ := List.forall_mem_cons.mp h
    cases rest with
    | nil => rw [List.map_singleton, String.intercalate_singleton, join]
    | cons b rest =>
      -- The separator has no placeholder, so the values of the first piece end with the first piece.
      have hfront : (a ++ ofText separator).Paired := ha.append hsep
      rw [join_cons_cons, display_append hfront, display_append ha, display_ofText, ih hrest]
      simp [String.intercalate_cons_cons]

end Fragment

/-! ### Items -/

namespace Item

/-- The text of an item with its values inlined. -/
def display : Item → String
  | .word s => s
  | .slot v _ => Dialect.generic.literal v
  | .statement piece => piece.display

/-- An item with an even number of quotes and one placeholder for each of its values. -/
def Paired (item : Item) : Prop := (written [item]).Paired

theorem paired_word {s : String} (h : Neutral s) : (word s).Paired := by
  rw [Paired, written_word]
  exact h

/-- A fixed word. -/
theorem paired_plain (s : String) (h : s.toList.all (!isMark ·) = true := by decide) : (word s).Paired :=
  paired_word (neutral_of_plain h)

theorem paired_statement {piece : Fragment} (h : piece.Paired) : (statement piece).Paired := by
  rw [Paired, written_statement]
  exact h

theorem paired_ofValue (v : Value) : (ofValue v).Paired := by
  rw [Paired, written_ofValue]
  exact Fragment.paired_kept.value v

theorem paired_intercalate {separator : String} {members : List (List Item)} (hsep : (word separator).Paired)
    (h : ∀ member ∈ members, ∀ item ∈ member, item.Paired) :
    ∀ item ∈ [word separator].intercalate members, item.Paired := by
  induction members with
  | nil => exact fun _ hitem => nomatch hitem
  | cons a rest ih =>
    obtain ⟨ha, hrest⟩ := List.forall_mem_cons.mp h
    cases rest with
    | nil => rwa [List.intercalate_singleton]
    | cons b rest =>
      rw [List.intercalate_cons_cons, List.forall_mem_append, List.forall_mem_append, List.forall_mem_singleton]
      exact ⟨⟨ha, hsep⟩, ih hrest⟩

theorem display_written_singleton (item : Item) : (written [item]).display = item.display := by
  cases item with
  | word s => rw [written_word, Fragment.display_ofText, display]
  | slot v present => exact Fragment.display_placeholder v
  | statement piece => rw [written_statement, display]

theorem display_written {items : List Item} (h : ∀ item ∈ items, item.Paired) :
    (written items).display = String.join (items.map display) := by
  induction items with
  | nil => exact Fragment.display_ofText ""
  | cons item rest ih =>
    obtain ⟨hitem, hrest⟩ := List.forall_mem_cons.mp h
    have happend : written (item :: rest) = written [item] ++ written rest := written_append [item] rest
    rw [happend, Fragment.display_append hitem, display_written_singleton, ih hrest, List.map_cons, String.join_cons]

end Item

/-- The text of a test on a field with its values inlined. -/
def Test.display (name : String) (test : Test) : String := String.join ((test.items name).map Item.display)

theorem Test.paired_of_mem_items {name : String} {test : Test} (hname : Neutral name)
    (htoken : ∀ token ∈ test.token?, Neutral token) (hstatement : ∀ piece ∈ test.statement?, piece.Paired) :
    ∀ item ∈ test.items name, item.Paired := by
  have hfield : (Item.word name).Paired := Item.paired_word hname
  have hblank : (Item.word " ").Paired := Item.paired_plain " "
  have hrelation : ∀ relation : SetRelation, (Item.word relation.words).Paired := by
    intro relation
    cases relation <;> exact Item.paired_plain _
  rw [← List.forall_iff_forall_mem]
  cases test with
  | compare operator v =>
    have hoperator := Item.paired_word (Operator.neutral_kept.resolve v htoken)
    exact ⟨hfield, hblank, hoperator, hblank, Item.paired_ofValue v⟩
  | between low high =>
    exact ⟨hfield, Item.paired_plain " BETWEEN ", Item.paired_ofValue low, Item.paired_plain " AND ",
      Item.paired_ofValue high⟩
  | oneOf relation values =>
    have hmembers : ∀ member ∈ (Value.firsts values).map fun v => [Item.ofValue v], ∀ item ∈ member, item.Paired := by
      intro member hmember item hitem
      obtain ⟨v, -, rfl⟩ := List.mem_map.mp hmember
      obtain rfl := List.mem_singleton.mp hitem
      exact Item.paired_ofValue v
    have hset := Item.paired_intercalate (Item.paired_plain ", ") hmembers
    rw [items, List.forall_append, List.forall_append]
    exact ⟨⟨⟨hfield, hblank, hrelation relation, Item.paired_plain " ("⟩, List.forall_iff_forall_mem.mpr hset⟩,
      Item.paired_plain ")"⟩
  | inQuery relation query =>
    exact ⟨hfield, hblank, hrelation relation, Item.paired_plain " (", Item.paired_statement (hstatement query rfl),
      Item.paired_plain ")"⟩
  | like pattern => exact ⟨hfield, Item.paired_plain " LIKE ", Item.paired_ofValue pattern⟩
  | equalsRaw expression =>
    exact ⟨hfield, Item.paired_plain " = ", Item.paired_statement (hstatement expression rfl)⟩
  | equalsQuery query =>
    exact ⟨hfield, Item.paired_plain " = (", Item.paired_statement (hstatement query rfl), Item.paired_plain ")"⟩

theorem Test.display_fragment {name : String} {test : Test} (hname : Neutral name)
    (htoken : ∀ token ∈ test.token?, Neutral token) (hstatement : ∀ piece ∈ test.statement?, piece.Paired) :
    (test.fragment name).display = test.display name := by
  rw [fragment_eq_written, Item.display_written (paired_of_mem_items hname htoken hstatement), display]

/-! ### Conditions

The display of a condition is put together from the displays of its parts. An embedded tree is displayed as the list
of conditions that it was built from. -/

mutual

/-- The text of a condition in a list joined by `parent`, with a literal for each value. -/
inductive Condition.Displays : Connective → Condition → String → Prop
  | field {parent : Connective} {name : String} {test : Test} :
      Condition.Displays parent (.field name test) (test.display name)
  | group {parent : Connective} {connective : Option Connective} {children : List Condition} {texts : List String} :
      Condition.DisplaysEach (connective.getD parent.flip) children texts →
      Condition.Displays parent (.group connective children) ((connective.getD parent.flip).enclose texts)
  | raw {parent : Connective} {piece : Fragment} : Condition.Displays parent (.raw piece) piece.display
  | tree {parent : Connective} {t : Tree} {text : String} : Tree.Displays t text →
      Condition.Displays parent (.tree t) text

/-- The texts of the conditions of a list, one for each. -/
inductive Condition.DisplaysEach : Connective → List Condition → List String → Prop
  | nil {parent : Connective} : Condition.DisplaysEach parent [] []
  | cons {parent : Connective} {c : Condition} {cs : List Condition} {text : String} {texts : List String} :
      c.Displays parent text → Condition.DisplaysEach parent cs texts →
      Condition.DisplaysEach parent (c :: cs) (text :: texts)

/-- The text of a tree is that of the conditions it was built from, whose own parts are neutral and paired. -/
inductive Tree.Displays : Tree → String → Prop
  | built {s : Connective} {cs : List Condition} {t : Tree} {texts : List String} :
      (∀ c ∈ cs, c.MadeOf Neutral Fragment.Paired) → (Tree.ofConditions s cs).outcome = .ok t →
      Condition.DisplaysEach s cs texts → Tree.Displays t (s.enclose texts)

end

theorem Tree.display_toFragment {t : Tree} (h : ∀ clause ∈ t.clauses, clause.toFragment.Paired) :
    t.toFragment.display = t.connective.enclose (t.clauses.map (·.toFragment.display)) := by
  rw [toFragment, Connective.enclose, List.isEmpty_map]
  split
  · exact Fragment.display_ofText _
  · have hpieces : ∀ piece ∈ t.clauses.map Clause.toFragment, piece.Paired := by
      intro piece hpiece
      obtain ⟨clause, hclause, rfl⟩ := List.mem_map.mp hpiece
      exact h clause hclause
    have hsep : Neutral (" " ++ t.connective.word ++ " ") := Fragment.paired_kept.separator t.connective
    have hopen : (Fragment.ofText "(").Paired := neutral_of_plain
    have hjoin : (Fragment.join (" " ++ t.connective.word ++ " ") (t.clauses.map Clause.toFragment)).Paired :=
      Fragment.join_induction (Fragment.paired_kept.word "") Fragment.paired_kept.append hsep hpieces
    rw [Fragment.display_append (hopen.append hjoin), Fragment.display_append hopen, Fragment.display_ofText,
      Fragment.display_ofText, Fragment.display_join hsep hpieces, List.map_map]
    rfl

/-- A tree is displayed as the conditions that it was built from, if the clause of each is. -/
theorem Tree.display_of_gives {s : Connective} {cs : List Condition} {t : Tree} {texts : List String}
    (hcs : ∀ c ∈ cs, c.MadeOf Neutral Fragment.Paired) (ht : (Tree.ofConditions s cs).outcome = .ok t)
    (h : ∀ clauses, List.Forall₂ (Condition.Gives s) cs clauses → clauses.map (·.toFragment.display) = texts) :
    t.toFragment.display = s.enclose texts := by
  obtain ⟨rfl, hgives⟩ := Tree.ofConditions_eq_ok_iff.mp ht
  have hpaired : ∀ clause ∈ t.clauses, clause.toFragment.Paired := by
    intro clause hclause
    obtain ⟨c, hc, hg⟩ := Condition.exists_gives hgives hclause
    exact (hcs c hc).kept Fragment.paired_kept hg
  rw [display_toFragment hpaired, h t.clauses hgives]

mutual

theorem Condition.Displays.display_eq {parent : Connective} {c : Condition} {text : String} :
    c.Displays parent text → c.MadeOf Neutral Fragment.Paired → ∀ {clause : Clause}, c.Gives parent clause →
      clause.toFragment.display = text
  | .field, .field hname htoken hstatement, clause, hg => by
    rw [(Condition.gives_field.mp hg).2.2]
    exact Test.display_fragment hname htoken fun piece hp => (hstatement piece hp).kept Fragment.paired_kept
  | .group h, .group hchildren, clause, hg => by
    obtain ⟨nested, hn, hclause⟩ := (Condition.gives_group.mp hg).2
    rw [hclause]
    -- A group is a tree of its own under its connective, so its clauses are displayed as those of a tree.
    exact Tree.display_of_gives hchildren hn fun clauses hgives => h.map_display hchildren hgives
  | .raw, _, clause, hg => by
    rw [Condition.gives_raw.mp hg]
    rfl
  | .tree h, _, clause, hg => by
    rw [Condition.gives_tree.mp hg]
    exact h.display_eq

theorem Condition.DisplaysEach.map_display {parent : Connective} {cs : List Condition} {texts : List String} :
    Condition.DisplaysEach parent cs texts → (∀ c ∈ cs, c.MadeOf Neutral Fragment.Paired) → ∀ {clauses : List Clause},
      List.Forall₂ (Condition.Gives parent) cs clauses → clauses.map (·.toFragment.display) = texts
  | .nil, _, clauses, hgives => by
    cases hgives
    rfl
  | .cons h hrest, hcs, clauses, hgives => by
    cases hgives with
    | cons hg hgs =>
      obtain ⟨hc, hcs⟩ := List.forall_mem_cons.mp hcs
      rw [List.map_cons, h.display_eq hc hg, hrest.map_display hcs hgs]

theorem Tree.Displays.display_eq {t : Tree} {text : String} : t.Displays text → t.toFragment.display = text
  | .built hcs ht h => Tree.display_of_gives hcs ht fun _ hgives => h.map_display hcs hgives

end

theorem Condition.exists_displaysEach {parent : Connective} {cs : List Condition}
    (h : ∀ c ∈ cs, ∃ text, c.Displays parent text) : ∃ texts, Condition.DisplaysEach parent cs texts := by
  induction cs with
  | nil => exact ⟨[], .nil⟩
  | cons c cs ih =>
    obtain ⟨⟨text, hc⟩, hrest⟩ := List.forall_mem_cons.mp h
    obtain ⟨texts, hcs⟩ := ih hrest
    exact ⟨text :: texts, .cons hc hcs⟩

mutual

theorem Condition.MadeOf.exists_displays {c : Condition} : c.MadeOf Neutral Fragment.Paired →
    ∀ parent, ∃ text, c.Displays parent text
  | .field _ _ _, _ => ⟨_, .field⟩
  | @Condition.MadeOf.group _ _ connective children hchildren, parent => by
    obtain ⟨texts, h⟩ := Condition.exists_displaysEach fun c hc =>
      (hchildren c hc).exists_displays (connective.getD parent.flip)
    exact ⟨_, .group h⟩
  | .raw _, _ => ⟨_, .raw⟩
  | .tree ht, _ => by
    obtain ⟨text, h⟩ := ht.exists_displays
    exact ⟨text, .tree h⟩

theorem Tree.MadeOf.exists_displays {t : Tree} : t.MadeOf Neutral Fragment.Paired → ∃ text, t.Displays text
  | @Tree.MadeOf.built _ _ s cs t hcs ht => by
    obtain ⟨texts, h⟩ := Condition.exists_displaysEach fun c hc => (hcs c hc).exists_displays s
    exact ⟨_, .built hcs ht h⟩

end

theorem Tree.value_debugSql (t : Tree) : t.debugSql.value = t.toFragment.display := rfl

/-- The debugging text of a tree shows every value where its condition stands: it is the text of the conditions, each
    displayed by itself with its own values, whatever quotes and question marks there are in these. -/
theorem Tree.debugSql_eq_display {s : Connective} {cs : List Condition} {t : Tree}
    (hcs : ∀ c ∈ cs, c.MadeOf Neutral Fragment.Paired) (ht : (Tree.ofConditions s cs).outcome = .ok t) :
    (∃ texts, Condition.DisplaysEach s cs texts) ∧
      ∀ texts, Condition.DisplaysEach s cs texts → t.debugSql.value = s.enclose texts := by
  constructor
  · exact Condition.exists_displaysEach fun c hc => (hcs c hc).exists_displays s
  · intro texts h
    rw [value_debugSql]
    exact (Tree.Displays.built hcs ht h).display_eq

theorem Tree.debugSql_eq_display_quotes :
    ∃ cs t texts, cs = [
        .field "it''s" (.compare (some "!") (.text "?'")),
        .group none [
          .field "b" (.oneOf .notIn [.text "'", .null, .text "'"]),
          .raw ⟨"note = '?' AND x > ?", [.int 2]⟩],
        .tree ⟨.or, [.fragment ⟨"(c LIKE ? AND d = ?)", [.text "'?", .bool true]⟩]⟩] ∧
      (Tree.ofConditions .or cs).outcome = .ok t ∧ Condition.DisplaysEach .or cs texts ∧
      texts = [
        "it''s <> '?'''",
        "(b NOT IN ('''', NULL) AND note = '?' AND x > 2)",
        "((c LIKE '''?' AND d = TRUE))"] ∧
      t.debugSql.value = Connective.or.enclose texts := by
  have hfield : ∀ {name : String} {test : Test}, Neutral name → (∀ token ∈ test.token?, Neutral token) →
      test.statement? = none → (Condition.field name test).MadeOf Neutral Fragment.Paired :=
    fun hname htoken hnone => .field hname htoken fun piece hp => by
      rw [hnone] at hp
      cases hp
  -- The embedded tree has to come from conditions that are themselves neutral and paired.
  have hinner : ∀ c ∈ [Condition.group none [.field "c" (.like (.text "'?")), .field "d" (.compare none (.bool true))]],
      c.MadeOf Neutral Fragment.Paired := by
    refine List.forall_mem_singleton.mpr (.group ?_)
    refine List.forall_mem_cons.mpr ⟨hfield neutral_of_plain (fun _ h => nomatch h) rfl, ?_⟩
    exact List.forall_mem_singleton.mpr (hfield neutral_of_plain (fun _ h => nomatch h) rfl)
  have htree : (Tree.ofConditions .or
      [.group none [.field "c" (.like (.text "'?")), .field "d" (.compare none (.bool true))]]).outcome =
      .ok ⟨.or, [.fragment ⟨"(c LIKE ? AND d = ?)", [.text "'?", .bool true]⟩]⟩ := rfl
  have hcs : ∀ c ∈ [
      Condition.field "it''s" (.compare (some "!") (.text "?'")),
      .group none [
        .field "b" (.oneOf .notIn [.text "'", .null, .text "'"]),
        .raw ⟨"note = '?' AND x > ?", [.int 2]⟩],
      .tree ⟨.or, [.fragment ⟨"(c LIKE ? AND d = ?)", [.text "'?", .bool true]⟩]⟩],
      c.MadeOf Neutral Fragment.Paired := by
    refine List.forall_mem_cons.mpr ⟨hfield ⟨by decide, by decide⟩ ?_ rfl, ?_⟩
    · rintro token ⟨rfl⟩
      exact neutral_of_plain
    refine List.forall_mem_cons.mpr ⟨.group (List.forall_mem_cons.mpr ⟨?_, ?_⟩), ?_⟩
    · exact hfield neutral_of_plain (fun _ h => nomatch h) rfl
    · exact List.forall_mem_singleton.mpr (.raw (.given ⟨by decide, by decide⟩))
    · exact List.forall_mem_singleton.mpr (.tree (.built hinner htree))
  obtain ⟨-, hdisplay⟩ := debugSql_eq_display hcs rfl
  have hgroup : Condition.DisplaysEach .and
      [.field "b" (.oneOf .notIn [.text "'", .null, .text "'"]), .raw ⟨"note = '?' AND x > ?", [.int 2]⟩] _ :=
    .cons .field (.cons .raw .nil)
  have htexts : Condition.DisplaysEach .or _ _ :=
    .cons (@Condition.Displays.field .or "it''s" (.compare (some "!") (.text "?'")))
      (.cons (@Condition.Displays.group .or none _ _ hgroup)
        (.cons (.tree (.built hinner htree (.cons (.group (.cons .field (.cons .field .nil))) .nil))) .nil))
  exact ⟨_, _, _, rfl, rfl, htexts, by decide +kernel, hdisplay _ htexts⟩

end Criteria
