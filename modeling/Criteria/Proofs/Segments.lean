import Criteria.Proofs.Refilling

/-! Inlining in closed form. A text is cut at its placeholders, the question marks with no literal open in front of them.
    The literals of the values are written at the cuts in their order, and question marks at the cuts that are left. The
    segments between the cuts stay as they are, and values beyond the cuts are not used. -/

namespace Criteria

namespace Text

/-- The characters, each with whether a literal is open in front of it. -/
def scanned (quoted : Bool) : List Char → List (Char × Bool)
  | [] => []
  | c :: rest => (c, quoted) :: scanned (if c = '\'' then !quoted else quoted) rest

/-- The segments of a text that is cut at its placeholders, if a literal is open before it or not. -/
def segmentsFrom (quoted : Bool) (cs : List Char) : List String :=
  ((scanned quoted cs).splitOn ('?', false)).map fun segment => String.ofList (segment.map Prod.fst)

/-- The segments of a text that is cut at its placeholders. -/
def segments (s : String) : List String := segmentsFrom false s.toList

theorem exists_segmentsFrom (quoted : Bool) (cs : List Char) :
    ∃ first rest, segmentsFrom quoted cs = first :: rest :=
  List.exists_cons_of_ne_nil (List.map_eq_nil_iff.not.mpr (List.splitOn_ne_nil _ _))

theorem segmentsFrom_mark (cs : List Char) : segmentsFrom false ('?' :: cs) = "" :: segmentsFrom false cs := rfl

theorem segmentsFrom_other {quoted : Bool} {c : Char} (h : ¬(c = '?' ∧ quoted = false)) {cs : List Char} {first : String}
    {rest : List String} (hrest : segmentsFrom (if c = '\'' then !quoted else quoted) cs = first :: rest) :
    segmentsFrom quoted (c :: cs) = (String.singleton c ++ first) :: rest := by
  have hne : ((c, quoted) == ('?', false)) = false := by simpa using h
  obtain ⟨head, tail, hsplit, rfl, rfl⟩ := List.map_eq_cons_iff.mp hrest
  rw [segmentsFrom, scanned, List.splitOn_cons_eq_if_modifyHead, hne, hsplit]
  simp [String.ofList_cons]

theorem length_segmentsFrom (quoted : Bool) (cs : List Char) :
    (segmentsFrom quoted cs).length = marksOutside quoted cs + 1 := by
  induction cs generalizing quoted with
  | nil => rfl
  | cons c cs ih =>
    by_cases hmark : c = '?' ∧ quoted = false
    · obtain ⟨rfl, rfl⟩ := hmark
      rw [segmentsFrom_mark, List.length_cons, ih, marksOutside_mark]
    · obtain ⟨first, rest, hrest⟩ := exists_segmentsFrom (if c = '\'' then !quoted else quoted) cs
      rw [segmentsFrom_other hmark hrest, marksOutside_kept hmark, ← ih, hrest, List.length_cons, List.length_cons]

/-- The segments one after the other, with a text between each two of them. -/
def threaded (between : Nat → String) : List String → String
  | [] => ""
  | first :: rest => first ++ String.join (rest.mapIdx fun i segment => between i ++ segment)

theorem threaded_cons_cons (between : Nat → String) (first second : String) (rest : List String) :
    threaded between (first :: second :: rest) =
      first ++ between 0 ++ threaded (fun i => between (i + 1)) (second :: rest) := by
  rw [threaded, threaded, List.mapIdx_cons, String.join_cons]
  simp only [String.append_assoc]

theorem threaded_const (separator : String) (segments : List String) :
    threaded (fun _ => separator) segments = separator.intercalate segments := by
  cases segments with
  | nil => rfl
  | cons first rest =>
    induction rest generalizing first with
    | nil => simp [threaded]
    | cons second rest ih =>
      rw [threaded_cons_cons, ih, String.intercalate_cons_cons]

end Text

open Text

namespace Inline

theorem fill_eq_threaded (quoted : Bool) (cs : List Char) (vs : List Value) : String.ofList (fill quoted cs vs) =
    threaded (fun i => (vs.map Dialect.generic.literal).getD i "?") (segmentsFrom quoted cs) := by
  induction cs generalizing quoted vs with
  | nil => rfl
  | cons c cs ih =>
    by_cases hmark : c = '?' ∧ quoted = false
    · obtain ⟨rfl, rfl⟩ := hmark
      obtain ⟨first, rest, hrest⟩ := exists_segmentsFrom false cs
      rw [segmentsFrom_mark, hrest, threaded_cons_cons, ← hrest]
      cases vs with
      | nil =>
        have hnone := ih false []
        rw [fill_nil] at hnone ⊢
        rw [String.ofList_cons, hnone]
        rfl
      | cons v vs =>
        rw [fill_mark, String.ofList_append, ih]
        rfl
    · obtain ⟨first, rest, hrest⟩ := exists_segmentsFrom (if c = '\'' then !quoted else quoted) cs
      rw [fill_kept hmark, String.ofList_cons, ih, hrest, segmentsFrom_other hmark hrest, threaded, threaded,
        String.append_assoc]

theorem fill_of_no_quote {cs : List Char} (h : '\'' ∉ cs) (rest : List Char) (vs : List Value) :
    fill true (cs ++ rest) vs = cs ++ fill true rest vs := by
  induction cs with
  | nil => rfl
  | cons c cs ih =>
    rw [List.mem_cons, not_or] at h
    rw [List.cons_append, fill_kept (by simp), if_neg (Ne.symm h.1), ih h.2, List.cons_append]

end Inline

theorem inlined_literal (before inner after : String) (values : List Value)
    (hopen : quotedAfter false before.toList = true) (hinner : '\'' ∉ inner.toList) :
    inlined (before ++ inner ++ after) values = inlined before values ++ inner ++
      String.ofList (Inline.fill true after.toList (values.drop (placeholders before))) := by
  rw [inlined, String.append_assoc, String.toList_append, String.toList_append, Inline.fill_append_split, hopen,
    Inline.fill_of_no_quote hinner, Inline.fill_take]
  simp only [String.ofList_append, String.ofList_toList, String.append_assoc]
  rfl

/-- A text is the segments between its placeholders, with the placeholders between them. -/
theorem intercalate_segments (sql : String) : "?".intercalate (segments sql) = sql := by
  -- Without values every placeholder is kept, so nothing is changed.
  have hnone := Inline.fill_eq_threaded false sql.toList []
  rw [Inline.fill_nil, String.ofList_toList] at hnone
  exact (threaded_const "?" _).symm.trans hnone.symm

/-- A text with its values inlined, by the segments of the text. -/
structure InlinedBySegments (sql : String) (values : List Value) : Prop where
  text : inlined sql values = threaded (fun i => (values.map Dialect.generic.literal).getD i "?") (segments sql)
  cut : "?".intercalate (segments sql) = sql
  number : (segments sql).length = placeholders sql + 1
  surplus : inlined sql (values.take (placeholders sql)) = inlined sql values
  literal : ∀ before inner after, sql = before ++ inner ++ after → quotedAfter false before.toList = true →
    '\'' ∉ inner.toList → inlined sql values = inlined before values ++ inner ++
      String.ofList (Inline.fill true after.toList (values.drop (placeholders before)))

/-- The text with its values inlined is the segments of the text one after the other, with a literal between each two of
    them as long as there are values, and a question mark from there on. So there is one segment more than there are
    placeholders, values beyond them do not count, and what stands in a literal of the text is kept as it is. -/
theorem inlined_eq_threaded (sql : String) (values : List Value) : InlinedBySegments sql values where
  text := Inline.fill_eq_threaded false sql.toList values
  cut := intercalate_segments sql
  number := length_segmentsFrom false sql.toList
  surplus := congrArg String.ofList (Inline.fill_take false sql.toList values)
  literal before inner after hsql hopen hinner := hsql ▸ inlined_literal before inner after values hopen hinner

theorem inlined_eq_threaded_unclosed :
    segments "a = ? AND b = 'x?' OR c = ? AND d = '?" = ["a = ", " AND b = 'x?' OR c = ", " AND d = '?"] ∧
      inlined "a = ? AND b = 'x?' OR c = ? AND d = '?" [.text "'?"] = "a = '''?' AND b = 'x?' OR c = ? AND d = '?" ∧
      inlined "a = ? AND b = 'x?' OR c = ? AND d = '?" [.null, .int 2] =
        inlined "a = ? AND b = 'x?' OR c = ? AND d = '?" [.null, .int 2, .bool true] ∧
      inlined "a = ? AND b = 'x?' OR c = ? AND d = '?" [.null, .int 2, .bool true] =
        inlined "a = ? AND b = '" [.null, .int 2, .bool true] ++ "x?" ++ "' OR c = 2 AND d = '?" := by
  have hcut : segments "a = ? AND b = 'x?' OR c = ? AND d = '?" =
      ["a = ", " AND b = 'x?' OR c = ", " AND d = '?"] := by decide +kernel
  have hshort := inlined_eq_threaded "a = ? AND b = 'x?' OR c = ? AND d = '?" [.text "'?"]
  have hlong := inlined_eq_threaded "a = ? AND b = 'x?' OR c = ? AND d = '?" [.null, .int 2, .bool true]
  refine ⟨hcut, ?_, hlong.surplus, ?_⟩
  · rw [hshort.text, hcut]
    decide +kernel
  · exact hlong.literal "a = ? AND b = '" "x?" "' OR c = ? AND d = '?" (by decide +kernel) (by decide +kernel) (by decide +kernel)

end Criteria
