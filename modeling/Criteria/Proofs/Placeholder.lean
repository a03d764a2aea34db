import Criteria.Proofs.Spelling
import Mathlib.Algebra.Group.Nat.Even

/-! Placeholders in SQL text. A question mark is a placeholder if it stands outside single quotes, where each quote
    opens or closes a literal. A neutral text has no placeholder and leaves no literal open, so it can be written
    anywhere; it stays neutral when it is trimmed or raised. -/

namespace Criteria
namespace Text

/-- Whether a literal is open after the characters, if one is open before them or not. -/
def quotedAfter (quoted : Bool) : List Char → Bool
  | [] => quoted
  | c :: rest => quotedAfter (if c = '\'' then !quoted else quoted) rest

/-- The number of question marks outside literals among the characters, if a literal is open before them or not. -/
def marksOutside (quoted : Bool) : List Char → Nat
  | [] => 0
  | c :: rest =>
    if c = '\'' then marksOutside (!quoted) rest
    else if c = '?' ∧ quoted = false then marksOutside quoted rest + 1
    else marksOutside quoted rest

/-- The number of placeholders of a text. -/
def placeholders (s : String) : Nat := marksOutside false s.toList

/-- A text with an even number of quotes and no placeholder. -/
def Neutral (s : String) : Prop := Even (s.toList.count '\'') ∧ placeholders s = 0

/-- What is no placeholder is not counted, and a quote opens or closes a literal. -/
theorem marksOutside_kept {quoted : Bool} {c : Char} (h : ¬(c = '?' ∧ quoted = false)) (cs : List Char) :
    marksOutside quoted (c :: cs) = marksOutside (if c = '\'' then !quoted else quoted) cs := by
  rw [marksOutside, if_neg h]
  split <;> rfl

theorem marksOutside_mark (cs : List Char) : marksOutside false ('?' :: cs) = marksOutside false cs + 1 := rfl

theorem marksOutside_append (quoted : Bool) (a b : List Char) :
    marksOutside quoted (a ++ b) = marksOutside quoted a + marksOutside (quotedAfter quoted a) b := by
  induction a generalizing quoted with
  | nil => simp [marksOutside, quotedAfter]
  | cons c a ih =>
    simp only [List.cons_append, marksOutside, quotedAfter, ih]
    split
    · rfl
    · split <;> omega

/-- The quotes of a text open as many literals as they close if their number is even. -/
theorem quotedAfter_eq_iff (quoted : Bool) (cs : List Char) : quotedAfter quoted cs = quoted ↔ Even (cs.count '\'') := by
  induction cs generalizing quoted with
  | nil => simp [quotedAfter]
  | cons c cs ih =>
    rw [quotedAfter]
    by_cases hc : c = '\''
    · subst hc
      have := ih (!quoted)
      rw [List.count_cons_self, Nat.even_add_one, ← this]
      cases quoted <;> simp
    · rw [if_neg hc, List.count_cons_of_ne (by simpa using hc)]
      exact ih quoted

theorem quotedAfter_of_even {cs : List Char} (h : Even (cs.count '\'')) (quoted : Bool) : quotedAfter quoted cs = quoted :=
  (quotedAfter_eq_iff quoted cs).mpr h

/-- Placeholders are counted text by text if the first text leaves no literal open. -/
theorem placeholders_append {s : String} (h : Even (s.toList.count '\'')) (t : String) :
    placeholders (s ++ t) = placeholders s + placeholders t := by
  rw [placeholders, String.toList_append, marksOutside_append, quotedAfter_of_even h, placeholders, placeholders]

/-- Whether the character matters to the scan. -/
def isMark (c : Char) : Bool := c = '\'' || c = '?'

theorem count_filter_isMark (cs : List Char) : (cs.filter isMark).count '\'' = cs.count '\'' :=
  List.count_filter (by decide)

theorem marksOutside_filter_isMark (quoted : Bool) (cs : List Char) :
    marksOutside quoted (cs.filter isMark) = marksOutside quoted cs := by
  induction cs generalizing quoted with
  | nil => rfl
  | cons c cs ih =>
    by_cases hc : isMark c = true
    · rw [List.filter_cons_of_pos hc]
      simp only [marksOutside, ih]
    · rw [List.filter_cons_of_neg hc, ih]
      have : c ≠ '\'' ∧ c ≠ '?' := by simpa [isMark] using hc
      simp [marksOutside, this]

/-- Whether a text is neutral shows in its quotes and question marks alone. -/
theorem neutral_congr {s t : String} (h : s.toList.filter isMark = t.toList.filter isMark) : Neutral s ↔ Neutral t := by
  unfold Neutral placeholders
  rw [← count_filter_isMark, ← marksOutside_filter_isMark, h, count_filter_isMark, marksOutside_filter_isMark]

theorem neutral_of_plain {s : String} (h : s.toList.all (!isMark ·) = true := by decide) : Neutral s := by
  have hnil : s.toList.filter isMark = "".toList.filter isMark := by
    rw [List.filter_eq_nil_iff.mpr fun c hc => by simpa using List.all_eq_true.mp h c hc]
    rfl
  exact (neutral_congr hnil).mpr ⟨by simp, rfl⟩

/-- A class of characters without quote and question mark holds no character that matters. -/
theorem isMark_of_class {p : Char → Bool} (hquote : p '\'' = false) (hmark : p '?' = false) {c : Char}
    (h : p c = true) : isMark c = false := by
  rw [isMark, Bool.or_eq_false_iff, decide_eq_false_iff_not, decide_eq_false_iff_not]
  constructor
  · rintro rfl
    rw [hquote] at h
    cases h
  · rintro rfl
    rw [hmark] at h
    cases h

theorem neutral_trim {s : String} : Neutral (trim s) ↔ Neutral s := by
  apply neutral_congr
  rw [toList_trim]
  exact filter_trimmed (fun _ hc => isMark_of_class (by decide) (by decide) hc) _

theorem isMark_toUpper (c : Char) : isMark c.toUpper = isMark c := by
  have hquote : c.toUpper = '\'' ↔ c = '\'' := toUpper_eq_iff (by decide) (by decide)
  have hmark : c.toUpper = '?' ↔ c = '?' := toUpper_eq_iff (by decide) (by decide)
  simp [isMark, hquote, hmark]

theorem neutral_toUpper {s : String} : Neutral s.toUpper ↔ Neutral s := by
  apply neutral_congr
  have hcomp : isMark ∘ Char.toUpper = isMark := funext isMark_toUpper
  rw [toList_toUpper, List.filter_map, hcomp]
  -- The only characters that are left are the two marks, which have no capitals.
  have hid : ∀ c ∈ s.toList.filter isMark, c.toUpper = id c := by
    intro c hc
    have hc : isMark c = true := (List.mem_filter.mp hc).2
    rw [isMark, Bool.or_eq_true, decide_eq_true_eq, decide_eq_true_eq] at hc
    rcases hc with rfl | rfl <;> rfl
  rw [List.map_congr_left hid, List.map_id]

end Text

end Criteria
