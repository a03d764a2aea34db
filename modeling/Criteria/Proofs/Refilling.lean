import Criteria.Proofs.Inlining
import Criteria.Proofs.Literal

/-! Values inlined in turns. A literal leaves no quote open and has its question marks between quotes, whatever its
    value holds. So a text that has literals in it already is filled on from where the values ran out, and a text
    without placeholders stays as it is. -/

namespace Criteria
open Text

namespace Text

theorem neutral_ofList {cs : List Char} :
    Neutral (String.ofList cs) ↔ Even (cs.count '\'') ∧ marksOutside false cs = 0 := by
  rw [Neutral, placeholders, String.toList_ofList]

theorem neutral_of_marks {cs : List Char} (h : ∀ c ∈ cs, isMark c = false) : Neutral (String.ofList cs) := by
  refine neutral_of_plain (List.all_eq_true.mpr fun c hc => ?_)
  rw [String.toList_ofList] at hc
  rw [h c hc]
  rfl

end Text

namespace Binary64

variable {c : Char}

/-- The digits of a double are digits, as those of a point of a grid, or the zero that stands for no point. -/
theorem isDigit_of_mem_digits {x : Binary64} {tie : Decimal.Tie} (h : c ∈ (x.digits tie).digits) : c.isDigit = true := by
  have hzero : ∀ {d : Char}, d ∈ ['0'] → d.isDigit = true := by simp
  rw [digits] at h
  split at h
  · exact hzero h
  · cases hshortest : x.interval.shortest tie with
    | none =>
      rw [hshortest] at h
      exact hzero h
    | some s =>
      rw [hshortest] at h
      obtain ⟨n, -, hgrid⟩ := List.exists_of_findSome?_eq_some hshortest
      obtain ⟨point, -, rfl⟩ := Option.map_eq_some_iff.mp hgrid
      have hmem : c ∈ (Decimal.ofNat point).reverse.dropWhile (· == '0') := List.mem_reverse.mp h
      exact Decimal.isDigit_of_mem_ofNat (List.mem_reverse.mp ((List.dropWhile_sublist _).subset hmem))

/-- Positional notation adds zeros only. -/
theorem isDigit_of_mem_positional {s : Decimal.Scientific} (hs : ∀ d ∈ s.digits, d.isDigit = true)
    (h : c ∈ s.positional.1 ∨ c ∈ s.positional.2) : c.isDigit = true := by
  have hzeros : ∀ {n : Nat}, c ∈ List.replicate n '0' → c.isDigit = true := by
    intro n hc
    rw [List.eq_of_mem_replicate hc]
    rfl
  rw [Decimal.Scientific.positional] at h
  split at h
  · rcases h with h | h
    · exact hzeros (n := 1) h
    · exact (List.mem_append.mp h).elim hzeros (hs c)
  · rcases h with h | h
    · exact (List.mem_append.mp h).elim (fun hc => hs c (List.mem_of_mem_take hc)) hzeros
    · exact hs c (List.mem_of_mem_drop h)

end Binary64

namespace Dialect

/-- A double is written in positional notation, so without an exponent. -/
theorem mem_layout_floatFormat {s : Decimal.Scientific} {c : Char} (h : c ∈ floatFormat.layout s) :
    c ∈ s.positional.1 ∨ c ∈ s.positional.2 ∨ c = '.' := by
  have hpositional : floatFormat.isPositional s.exponent = true := rfl
  rw [Binary64.Format.layout, if_pos hpositional] at h
  split at h
  · rename_i heq
    rw [heq]
    exact .inl (by simpa [floatFormat] using h)
  · rename_i heq
    rw [heq]
    rcases List.mem_append.mp h with h | h
    · exact .inl h
    · rcases List.mem_cons.mp h with h | h
      · exact .inr (.inr h)
      · exact .inr (.inl h)

/-- Neither a quote nor a question mark is written for a double. -/
theorem isMark_of_mem_floatLiteral {x : Binary64} {c : Char} (h : c ∈ floatLiteral x) : isMark c = false := by
  have hlayout : ∀ d ∈ floatFormat.layout (x.digits floatFormat.tie), isMark d = false := by
    intro d hd
    rcases or_assoc.mpr (mem_layout_floatFormat hd) with hd | rfl
    · have hdigit : d.isDigit = true := Binary64.isDigit_of_mem_positional (fun _ he => Binary64.isDigit_of_mem_digits he) hd
      exact isMark_of_class rfl rfl hdigit
    · rfl
  have hname : ∀ {name : List Char}, name.all (!isMark ·) = true → c ∈ name → isMark c = false := by
    intro name hplain hc
    simpa using List.all_eq_true.mp hplain c hc
  rw [floatLiteral] at h
  split at h
  · exact hname (by decide) h
  split at h
  · rw [Binary64.Format.write] at h
    split at h
    · rcases List.mem_cons.mp h with rfl | h
      · rfl
      · exact hlayout c h
    · exact hlayout c h
  split at h
  · exact hname (by decide) h
  · exact hname (by decide) h

theorem even_count_doubled (cs : List Char) : Even ((cs.flatMap doubled).count '\'') := by
  induction cs with
  | nil => simp
  | cons c cs ih =>
    have hdoubled : Even ((doubled c).count '\'') := by
      by_cases hc : c = '\''
      · subst hc
        exact ⟨1, rfl⟩
      · simp [doubled_of_ne hc, hc]
    rw [List.flatMap_cons, List.count_append]
    exact hdoubled.add ih

/-- Between quotes a text with its quotes doubled has no placeholder: after each pair a literal is open again. -/
theorem marksOutside_doubled (cs : List Char) : marksOutside true (cs.flatMap doubled) = 0 := by
  induction cs with
  | nil => rfl
  | cons c cs ih =>
    by_cases hc : c = '\''
    · subst hc
      simpa [doubled, marksOutside] using ih
    · simpa [doubled_of_ne hc, marksOutside, hc] using ih

theorem isMark_of_mem_ofInt {n : Int} {c : Char} (h : c ∈ Decimal.ofInt n) : isMark c = false := by
  rcases Decimal.eq_minus_or_isDigit_of_mem_ofInt h with rfl | hdigit
  · rfl
  · exact isMark_of_class rfl rfl hdigit

/-- A literal can stand anywhere: it has an even number of quotes, and no placeholder. -/
theorem neutral_literal (v : Value) : Neutral (generic.literal v) := by
  cases v with
  | null => exact neutral_of_plain
  | bool b => cases b <;> exact neutral_of_plain
  | int n => exact neutral_of_marks fun c hc => isMark_of_mem_ofInt hc
  | float x => exact neutral_of_marks fun c hc => isMark_of_mem_floatLiteral hc
  | text s =>
    have heven := even_count_doubled s.toList
    rw [literal, neutral_ofList, literalChars_text, List.cons_append]
    constructor
    · simpa [Nat.even_add_one] using heven
    · rw [marksOutside, if_pos rfl, Bool.not_false, marksOutside_append, marksOutside_doubled]
      rfl
  | blob bytes =>
    have hhex : (hex bytes).filter isMark = [] := by
      refine List.filter_eq_nil_iff.mpr fun c hc => ?_
      rw [isMark_of_class rfl rfl (isAlphanum_of_mem_hex hc)]
      exact Bool.false_ne_true
    have hfilter : (generic.literal (.blob bytes)).toList.filter isMark = "''".toList.filter isMark := by
      rw [literal, String.toList_ofList, literalChars_blob, List.filter_append, List.filter_cons_of_neg (by decide),
        List.filter_cons_of_pos (by decide), hhex]
      rfl
    exact (neutral_congr hfilter).mpr ⟨by decide, by decide⟩

end Dialect

/-! ### Filling twice -/

namespace Inline

/-- A literal that is written already is passed over, and the values are left for what follows it. -/
theorem fill_literal (v : Value) (cs : List Char) (q : List Value) :
    fill false (Dialect.generic.literalChars v ++ cs) q = Dialect.generic.literalChars v ++ fill false cs q := by
  obtain ⟨heven, hmarks⟩ := neutral_ofList.mp (Dialect.neutral_literal v)
  rw [← List.nil_append q, fill_append hmarks, fill_nil, quotedAfter_of_even heven, List.nil_append]

theorem marksOutside_literal (v : Value) (cs : List Char) :
    marksOutside false (Dialect.generic.literalChars v ++ cs) = marksOutside false cs := by
  obtain ⟨heven, hmarks⟩ := neutral_ofList.mp (Dialect.neutral_literal v)
  rw [marksOutside_append, hmarks, quotedAfter_of_even heven, Nat.zero_add]

/-- Filling in turns is filling at once, as a literal that the first filling writes has nothing for the second one. -/
theorem fill_fill (quoted : Bool) (cs : List Char) (p q : List Value) :
    fill quoted (fill quoted cs p) q = fill quoted cs (p ++ q) := by
  induction cs generalizing quoted p with
  | nil => rfl
  | cons c cs ih =>
    cases p with
    | nil => rw [fill_nil, List.nil_append]
    | cons v p =>
      by_cases hmark : c = '?' ∧ quoted = false
      · -- The second filling passes the literal over.
        obtain ⟨rfl, rfl⟩ := hmark
        rw [fill_mark, fill_literal, ih, List.cons_append, fill_mark]
      · rw [fill_kept hmark, fill_kept hmark, fill_kept hmark, ih]

/-- Each value uses up one placeholder, and brings no other one. -/
theorem marksOutside_fill (quoted : Bool) (cs : List Char) (p : List Value) :
    marksOutside quoted (fill quoted cs p) = marksOutside quoted cs - p.length := by
  induction cs generalizing quoted p with
  | nil => exact (Nat.zero_sub p.length).symm
  | cons c cs ih =>
    cases p with
    | nil => rw [fill_nil, List.length_nil, Nat.sub_zero]
    | cons v p =>
      by_cases hmark : c = '?' ∧ quoted = false
      · obtain ⟨rfl, rfl⟩ := hmark
        rw [fill_mark, marksOutside_literal, ih, marksOutside_mark, List.length_cons, Nat.add_sub_add_right]
      · rw [fill_kept hmark, marksOutside_kept hmark, marksOutside_kept hmark, ih]

theorem fill_of_no_mark {quoted : Bool} {cs : List Char} (h : marksOutside quoted cs = 0) (q : List Value) :
    fill quoted cs q = cs := by
  rw [← fill_take, h, List.take_zero, fill_nil]

end Inline

theorem placeholders_inlined (sql : String) (p : List Value) :
    placeholders (inlined sql p) = placeholders sql - p.length := by
  rw [placeholders, inlined, String.toList_ofList, Inline.marksOutside_fill, placeholders]

/-- Values inlined in turns are inlined as one list. Every value takes the place of one placeholder, and once there are as
    many values as placeholders, none is left and the text stays as it is. -/
theorem inlined_inlined (sql : String) (p q : List Value) :
    inlined (inlined sql p) q = inlined sql (p ++ q) ∧
    placeholders (inlined sql p) = placeholders sql - p.length ∧
    (placeholders sql ≤ p.length → placeholders (inlined sql p) = 0 ∧ ∀ r, inlined (inlined sql p) r = inlined sql p) := by
  refine ⟨?_, placeholders_inlined sql p, fun h => ?_⟩
  · rw [inlined, inlined, String.toList_ofList, Inline.fill_fill, inlined]
  · have hnone : placeholders (inlined sql p) = 0 := by rw [placeholders_inlined, Nat.sub_eq_zero_of_le h]
    refine ⟨hnone, fun r => ?_⟩
    rw [inlined, Inline.fill_of_no_mark hnone, String.ofList_toList]

theorem inlined_inlined_unclosed :
    inlined "a = ? OR ? AND '?" [.text "?'"] = "a = '?''' OR ? AND '?" ∧
      inlined (inlined "a = ? OR ? AND '?" [.text "?'"]) [.blob [0x3F], .int 1] = "a = '?''' OR X'3F' AND '?" ∧
      placeholders "a = ? OR ? AND '?" = 2 ∧
      ∀ r, inlined (inlined "a = ? OR ? AND '?" [.text "?'", .blob [0x3F]]) r =
        inlined "a = ? OR ? AND '?" [.text "?'", .blob [0x3F]] := by
  have hmarks : placeholders "a = ? OR ? AND '?" = 2 := by decide +kernel
  have hturns := (inlined_inlined "a = ? OR ? AND '?" [.text "?'"] [.blob [0x3F], .int 1]).1
  have hfull := (inlined_inlined "a = ? OR ? AND '?" [.text "?'", .blob [0x3F]] []).2.2 (Nat.le_of_eq hmarks)
  exact ⟨by decide +kernel, hturns.trans (by decide +kernel), hmarks, hfull.2⟩

end Criteria
