import Criteria.Text.Blank
import Mathlib.Data.List.DropRight

/-! Trimmed and raised text. Trimming takes blanks off both ends, raising a letter changes ASCII letters only, and
    neither makes or unmakes a blank. A keyword of a single word is spelled the same when it is read as a phrase. -/

namespace Criteria
namespace Text

/-- Raising moves a small ASCII letter down by 32 code points and leaves any other character as it is. -/
theorem toUpper_cases (c : Char) :
    (97 ≤ c.toNat ∧ c.toNat ≤ 122 ∧ c.toUpper.toNat + 32 = c.toNat) ∨
      ((c.toNat < 97 ∨ 122 < c.toNat) ∧ c.toUpper = c) := by
  by_cases h : 'a'.val ≤ c.val ∧ c.val ≤ 'z'.val
  · left
    have h1 : 97 ≤ c.toNat := UInt32.le_iff_toNat_le.mp h.1
    have h2 : c.toNat ≤ 122 := UInt32.le_iff_toNat_le.mp h.2
    refine ⟨h1, h2, ?_⟩
    have hup : c.toUpper = ⟨c.val + ('A'.val - 'a'.val), _⟩ := dif_pos h
    rw [hup, Char.toNat_mk, UInt32.toNat_add]
    have : c.val.toNat = c.toNat := rfl
    have h32 : ('A'.val - 'a'.val).toNat = 2 ^ 32 - 32 := by decide
    omega
  · right
    refine ⟨?_, dif_neg h⟩
    by_contra hc
    exact h ⟨UInt32.le_iff_toNat_le.mpr (show 97 ≤ c.toNat by omega),
      UInt32.le_iff_toNat_le.mpr (show c.toNat ≤ 122 by omega)⟩

theorem isBlank_toUpper (c : Char) : isBlank c.toUpper = isBlank c := by
  rcases toUpper_cases c with ⟨h1, h2, h⟩ | ⟨-, h⟩
  · simp only [isBlank, blankRanges, List.any_cons, List.any_nil, Bool.or_false]
    grind
  · rw [h]

/-- Only a character that is no letter is raised to one that is no letter. -/
theorem toUpper_eq_iff {c d : Char} (hu : d.toNat < 65 ∨ 90 < d.toNat) (hl : d.toNat < 97 ∨ 122 < d.toNat) :
    c.toUpper = d ↔ c = d := by
  rcases toUpper_cases c with ⟨h1, h2, h⟩ | ⟨-, h⟩
  · constructor
    · rintro rfl
      omega
    · rintro rfl
      omega
  · rw [h]

theorem toUpper_of_toNat_lt {c : Char} (h : c.toNat < 65) : c.toUpper = c := by
  rcases toUpper_cases c with ⟨hletter, -, -⟩ | ⟨-, hself⟩
  · omega
  · exact hself

theorem toNat_lt_of_toUpper {c : Char} (h : c.toUpper.toNat < 65) : c.toNat < 65 := by
  rcases toUpper_cases c with ⟨hletter, -, hsum⟩ | ⟨-, hself⟩
  · omega
  · rwa [hself] at h

theorem isLower_toUpper (c : Char) : c.toUpper.isLower = false := by
  rw [← Bool.not_eq_true]
  intro hlower
  obtain ⟨h1, h2⟩ := Bool.and_eq_true_iff.mp hlower
  have h1 : 97 ≤ c.toUpper.toNat := UInt32.le_iff_toNat_le.mp (of_decide_eq_true h1)
  have h2 : c.toUpper.toNat ≤ 122 := UInt32.le_iff_toNat_le.mp (of_decide_eq_true h2)
  rcases toUpper_cases c with ⟨hc1, hc2, h⟩ | ⟨hc, h⟩
  · omega
  · rw [h] at h1 h2
    omega

/-- Lowering moves a capital ASCII letter up by 32 code points and leaves any other character as it is. -/
theorem toLower_cases (c : Char) :
    (65 ≤ c.toNat ∧ c.toNat ≤ 90 ∧ c.toLower.toNat = c.toNat + 32) ∨ c.toLower = c := by
  by_cases h : 'A'.val ≤ c.val ∧ c.val ≤ 'Z'.val
  · left
    have h1 : 65 ≤ c.toNat := UInt32.le_iff_toNat_le.mp h.1
    have h2 : c.toNat ≤ 90 := UInt32.le_iff_toNat_le.mp h.2
    refine ⟨h1, h2, ?_⟩
    have hlow : c.toLower = ⟨c.val + ('a'.val - 'A'.val), _⟩ := dif_pos h
    rw [hlow, Char.toNat_mk, UInt32.toNat_add]
    have : c.val.toNat = c.toNat := rfl
    have h32 : ('a'.val - 'A'.val).toNat = 32 := by decide
    omega
  · exact Or.inr (dif_neg h)

theorem toUpper_toUpper (c : Char) : c.toUpper.toUpper = c.toUpper := by
  rcases toUpper_cases c with ⟨h1, h2, h⟩ | ⟨-, h⟩
  · rcases toUpper_cases c.toUpper with ⟨hletter, -, -⟩ | ⟨-, hself⟩
    · omega
    · exact hself
  · rw [h, h]

theorem toUpper_toLower (c : Char) : c.toLower.toUpper = c.toUpper := by
  rcases toLower_cases c with ⟨h1, h2, hlow⟩ | hself
  · rcases toUpper_cases c.toLower with ⟨-, -, hup⟩ | ⟨hother, -⟩
    · rcases toUpper_cases c with ⟨hletter, -, -⟩ | ⟨-, hself⟩
      · omega
      · rw [hself, ← Char.toNat_inj]
        omega
    · omega
  · rw [hself]

theorem toList_toUpper (s : String) : s.toUpper.toList = s.toList.map Char.toUpper := String.toList_map

/-- Only a text without letters is raised to one, and it is left as it is. -/
theorem toUpper_eq_iff_of_no_letter {s word : String} (h : ∀ c ∈ word.toList, c.toNat < 65) :
    s.toUpper = word ↔ s = word := by
  have hself : (∀ c ∈ s.toList, c.toNat < 65) → s.toUpper = s := by
    intro hlow
    have hchars : ∀ c ∈ s.toList, c.toUpper = id c := fun c hc => toUpper_of_toNat_lt (hlow c hc)
    rw [← String.toList_inj, toList_toUpper, List.map_congr_left hchars, List.map_id]
  constructor
  · rintro rfl
    rw [toList_toUpper, List.forall_mem_map] at h
    exact (hself fun c hc => toNat_lt_of_toUpper (h c hc)).symm
  · rintro rfl
    exact hself h

/-! ### Trimmed text -/

/-- Trimming takes blanks off both ends. -/
theorem exists_eq_trimmed (cs : List Char) :
    ∃ left right, cs = left ++ trimmed cs ++ right ∧ (∀ c ∈ left, isBlank c = true) ∧ ∀ c ∈ right, isBlank c = true := by
  refine ⟨cs.takeWhile isBlank, ((cs.dropWhile isBlank).reverse.takeWhile isBlank).reverse, ?_, ?_, ?_⟩
  · rw [trimmed, List.append_assoc, ← List.reverse_append, List.takeWhile_append_dropWhile, List.reverse_reverse,
      List.takeWhile_append_dropWhile]
  · exact fun c hc => (List.mem_takeWhile_imp hc)
  · intro c hc
    rw [List.mem_reverse] at hc
    exact List.mem_takeWhile_imp hc

/-- What no blank satisfies is filtered from a text and from its trimmed form alike. -/
theorem filter_trimmed {p : Char → Bool} (hp : ∀ c, isBlank c = true → p c = false) (cs : List Char) :
    (trimmed cs).filter p = cs.filter p := by
  obtain ⟨left, right, hcs, hl, hr⟩ := exists_eq_trimmed cs
  have hleft : left.filter p = [] := List.filter_eq_nil_iff.mpr fun c hc => by simp [hp c (hl c hc)]
  have hright : right.filter p = [] := List.filter_eq_nil_iff.mpr fun c hc => by simp [hp c (hr c hc)]
  conv => rhs; rw [hcs]
  simp [hleft, hright]

theorem trimmed_map_toUpper (cs : List Char) : trimmed (cs.map Char.toUpper) = (trimmed cs).map Char.toUpper := by
  have hblank : isBlank ∘ Char.toUpper = isBlank := funext isBlank_toUpper
  simp only [trimmed, List.dropWhile_map, ← List.map_reverse, hblank]

theorem trimmed_trimmed (cs : List Char) : trimmed (trimmed cs) = trimmed cs := by
  -- Taking blanks off the end keeps the first character, which is none.
  have hkept : trimmed cs <+: cs.dropWhile isBlank := List.rdropWhile_prefix isBlank _
  have hfront : (trimmed cs).dropWhile isBlank = trimmed cs := by
    refine List.dropWhile_eq_self_iff.mpr fun hpos => ?_
    rw [hkept.getElem hpos]
    exact List.dropWhile_get_zero_not isBlank cs (hpos.trans_le hkept.length_le)
  rw [trimmed, hfront]
  exact List.rdropWhile_idempotent isBlank (cs.dropWhile isBlank)

theorem trim_trim (s : String) : trim (trim s) = trim s := by
  rw [← String.toList_inj, toList_trim, toList_trim, trimmed_trimmed]

theorem dropWhile_isBlank_of_all {cs : List Char} (h : ∀ c ∈ cs, isBlank c = true) : cs.dropWhile isBlank = [] :=
  dropWhile_isBlank_eq_nil.mpr (List.all_eq_true.mpr h)

theorem trimmed_append_blanks {right : List Char} (hr : ∀ c ∈ right, isBlank c = true) (cs : List Char) :
    trimmed (cs ++ right) = trimmed cs := by
  rw [trimmed, trimmed, List.dropWhile_append]
  split
  · rename_i hempty
    rw [dropWhile_isBlank_of_all hr, List.isEmpty_iff.mp hempty]
  · have hreverse : ∀ c ∈ right.reverse, isBlank c = true := fun c hc => hr c (List.mem_reverse.mp hc)
    rw [List.reverse_append, List.dropWhile_append_of_pos hreverse]

theorem trimmed_blanks_append {left : List Char} (hl : ∀ c ∈ left, isBlank c = true) (cs : List Char) :
    trimmed (left ++ cs) = trimmed cs := by
  rw [trimmed, List.dropWhile_append_of_pos hl, trimmed]

theorem trim_keyword (s : String) : trim (keyword s) = keyword s := by
  rw [keyword, ← String.toList_inj, toList_trim, toList_toUpper, toList_trim, trimmed_map_toUpper, trimmed_trimmed]

/-- A keyword without letters is the trimmed text. -/
theorem keyword_eq_iff_of_no_letter {s word : String} (h : ∀ c ∈ word.toList, c.toNat < 65) :
    keyword s = word ↔ trim s = word :=
  toUpper_eq_iff_of_no_letter h

theorem keyword_trim (s : String) : keyword (trim s) = keyword s := by
  rw [keyword, trim_trim, keyword]

/-! ### Words -/

/-- The words of a list of characters. -/
def runs (cs : List Char) : List (List Char) := (cs.splitOnP isBlank).filter (!·.isEmpty)

theorem runs_blanks_append {left : List Char} (hl : ∀ c ∈ left, isBlank c = true) (cs : List Char) :
    runs (left ++ cs) = runs cs := by
  induction left with
  | nil => rfl
  | cons c left ih =>
    have hc : isBlank c = true := hl c List.mem_cons_self
    rw [List.cons_append, runs, List.splitOnP_cons_eq_if_modifyHead, if_pos hc, List.filter_cons_of_neg (by simp)]
    exact ih fun d hd => hl d (List.mem_cons_of_mem _ hd)

theorem runs_append_blanks {right : List Char} (hr : ∀ c ∈ right, isBlank c = true) (cs : List Char) :
    runs (cs ++ right) = runs cs := by
  cases right with
  | nil => rw [List.append_nil]
  | cons c right =>
    have hright := runs_blanks_append (fun d hd => hr d (List.mem_cons_of_mem _ hd)) []
    rw [List.append_nil] at hright
    rw [runs, List.splitOnP_append_cons cs right (hr c List.mem_cons_self), List.filter_append]
    have : (right.splitOnP isBlank).filter (!·.isEmpty) = [] := hright
    rw [this, List.append_nil, runs]

theorem runs_trimmed (cs : List Char) : runs (trimmed cs) = runs cs := by
  obtain ⟨left, right, hcs, hl, hr⟩ := exists_eq_trimmed cs
  conv => rhs; rw [hcs, runs_append_blanks hr, runs_blanks_append hl]

/-- Outer blanks do not show in the spelling of a phrase. -/
theorem phrase_trim (s : String) : phrase (trim s) = phrase s := by
  have hwords : ∀ t : String, words t = (runs t.toList).map String.ofList := fun _ => rfl
  rw [phrase, phrase, hwords, hwords, toList_trim, runs_trimmed]

theorem runs_of_no_blank {cs : List Char} (hne : cs ≠ []) (h : ∀ c ∈ cs, isBlank c = false) : runs cs = [cs] := by
  rw [runs, List.splitOnP_eq_singleton h]
  simp [hne]

/-- A keyword of one word is spelled the same as a phrase. -/
theorem phrase_eq_keyword {s : String} (hne : keyword s ≠ "") (h : ∀ c ∈ (keyword s).toList, isBlank c = false) :
    phrase s = keyword s := by
  have hkey : (keyword s).toList = (trimmed s.toList).map Char.toUpper := by
    rw [keyword, toList_toUpper, toList_trim]
  have hblank : ∀ c ∈ trimmed s.toList, isBlank c = false := by
    intro c hc
    rw [← isBlank_toUpper]
    exact h _ (hkey ▸ List.mem_map_of_mem hc)
  have htrim : trimmed s.toList ≠ [] := by
    intro hnil
    rw [hnil] at hkey
    exact hne (String.toList_inj.mp (by simpa using hkey))
  have hwords : words s = [trim s] := by
    have := runs_of_no_blank htrim hblank
    rw [runs_trimmed] at this
    rw [words, show (s.toList.splitOnP isBlank).filter (!·.isEmpty) = runs s.toList from rfl, this]
    rfl
  rw [phrase, hwords, String.intercalate_singleton, keyword]

end Text
end Criteria
