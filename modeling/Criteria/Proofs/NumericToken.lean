import Criteria.Operator
import Mathlib.Computability.RegularExpressions
import Mathlib.Data.List.TakeWhile

/-! Numeric tokens as a regular language. A sign is taken off a token, the rest is cut at its first point, and each part
    is tested for being digits, a test that an empty part passes as well. What passes is told here by one regular
    expression: a sign or none, and then digits with a point behind them, among them, in front of them or nowhere. -/

namespace Criteria
namespace Operator

variable {cs : List Char}

theorem toNat_of_isDigit {c : Char} (h : c.isDigit = true) : 48 ≤ c.toNat ∧ c.toNat ≤ 57 := by
  rw [Char.isDigit, Bool.and_eq_true, decide_eq_true_eq, decide_eq_true_eq] at h
  exact ⟨UInt32.le_iff_toNat_le.mp h.1, UInt32.le_iff_toNat_le.mp h.2⟩

/-- Digits with one point at most, and one digit at least. -/
inductive Unsigned : List Char → Prop
  | whole {digits : List Char} : digits ≠ [] → (∀ c ∈ digits, c.isDigit = true) → Unsigned digits
  | pointed {whole fraction : List Char} : whole ≠ [] ∨ fraction ≠ [] → (∀ c ∈ whole, c.isDigit = true) →
      (∀ c ∈ fraction, c.isDigit = true) → Unsigned (whole ++ '.' :: fraction)

theorem Unsigned.forall_mem {P : Char → Prop} (digit : ∀ c : Char, c.isDigit = true → P c) (point : P '.')
    (h : Unsigned cs) : ∀ c ∈ cs, P c := by
  cases h with
  | whole _ hdigits => exact fun c hc => digit c (hdigits c hc)
  | pointed _ hwhole hfraction =>
    rw [List.forall_mem_append, List.forall_mem_cons]
    exact ⟨fun c hc => digit c (hwhole c hc), point, fun c hc => digit c (hfraction c hc)⟩

theorem point_notMem_of_digits (h : ∀ c ∈ cs, c.isDigit = true) : '.' ∉ cs :=
  fun hpoint => absurd (h '.' hpoint) (by decide)

/-- The test that is left when the sign is off. -/
def isUnsigned (digits : List Char) : Bool :=
  let whole := digits.takeWhile (· != '.')
  match digits.dropWhile (· != '.') with
  | [] => !whole.isEmpty && whole.all Char.isDigit
  | _ :: fraction => (!whole.isEmpty || !fraction.isEmpty) && whole.all Char.isDigit && fraction.all Char.isDigit

theorem isUnsigned_of_no_point (h : '.' ∉ cs) : isUnsigned cs = (!cs.isEmpty && cs.all Char.isDigit) := by
  have hne : ∀ c ∈ cs, (c != '.') = true := fun c hc => bne_iff_ne.mpr (ne_of_mem_of_not_mem hc h)
  simp only [isUnsigned, List.takeWhile_eq_self_iff.mpr hne, List.dropWhile_eq_nil_iff.mpr hne]

theorem isUnsigned_of_point {whole : List Char} (h : '.' ∉ whole) (fraction : List Char) :
    isUnsigned (whole ++ '.' :: fraction) =
      ((!whole.isEmpty || !fraction.isEmpty) && whole.all Char.isDigit && fraction.all Char.isDigit) := by
  have hne : ∀ c ∈ whole, (c != '.') = true := fun c hc => bne_iff_ne.mpr (ne_of_mem_of_not_mem hc h)
  have htake : (whole ++ '.' :: fraction).takeWhile (· != '.') = whole := by
    rw [List.takeWhile_append_of_pos hne, List.takeWhile_cons_of_neg (by simp), List.append_nil]
  have hdrop : (whole ++ '.' :: fraction).dropWhile (· != '.') = '.' :: fraction := by
    rw [List.dropWhile_append_of_pos hne, List.dropWhile_cons_of_neg (by simp)]
  simp only [isUnsigned, htake, hdrop]

theorem isUnsigned_iff : isUnsigned cs = true ↔ Unsigned cs := by
  constructor
  · intro h
    by_cases hpoint : '.' ∈ cs
    · obtain ⟨whole, fraction, rfl, hwhole⟩ := List.eq_append_cons_of_mem hpoint
      simp only [isUnsigned_of_point hwhole, Bool.and_eq_true, Bool.or_eq_true, Bool.not_eq_true',
        List.isEmpty_eq_false_iff, List.all_eq_true] at h
      exact .pointed h.1.1 h.1.2 h.2
    · simp only [isUnsigned_of_no_point hpoint, Bool.and_eq_true, Bool.not_eq_true', List.isEmpty_eq_false_iff,
        List.all_eq_true] at h
      exact .whole h.1 h.2
  · rintro (⟨hne, hdigits⟩ | ⟨hne, hwhole, hfraction⟩)
    · rw [isUnsigned_of_no_point (point_notMem_of_digits hdigits)]
      simpa using ⟨hne, hdigits⟩
    · rw [isUnsigned_of_point (point_notMem_of_digits hwhole)]
      simpa using ⟨⟨hne, hwhole⟩, hfraction⟩

theorem isNumeric_of_no_sign (hplus : '+' ∉ cs) (hminus : '-' ∉ cs) : isNumeric cs = isUnsigned cs := by
  rw [isNumeric.eq_def]
  split
  · exact absurd List.mem_cons_self hplus
  · exact absurd List.mem_cons_self hminus
  · rfl

/-- A numeric token is an unsigned number after one sign at most. -/
theorem isNumeric_iff :
    isNumeric cs = true ↔ ∃ digits, (cs = digits ∨ cs = '+' :: digits ∨ cs = '-' :: digits) ∧ Unsigned digits := by
  constructor
  · intro h
    rw [isNumeric.eq_def] at h
    split at h
    · exact ⟨_, Or.inr (Or.inl rfl), isUnsigned_iff.mp h⟩
    · exact ⟨_, Or.inr (Or.inr rfl), isUnsigned_iff.mp h⟩
    · exact ⟨_, Or.inl rfl, isUnsigned_iff.mp h⟩
  · rintro ⟨digits, rfl | rfl | rfl, h⟩
    · have hsign : ∀ c ∈ cs, c ≠ '+' ∧ c ≠ '-' := by
        refine h.forall_mem (fun c hc => ?_) (by decide)
        constructor <;> rintro rfl <;> exact absurd hc (by decide)
      rw [isNumeric_of_no_sign (fun hc => (hsign _ hc).1 rfl) fun hc => (hsign _ hc).2 rfl]
      exact isUnsigned_iff.mpr h
    · exact isUnsigned_iff.mpr h
    · exact isUnsigned_iff.mpr h

/-- What holds of digits, points and signs holds of every character of a numeric token. -/
theorem forall_mem_of_isNumeric {P : Char → Prop} (digit : ∀ c : Char, c.isDigit = true → P c) (point : P '.')
    (plus : P '+') (minus : P '-') (h : isNumeric cs = true) : ∀ c ∈ cs, P c := by
  obtain ⟨digits, hsign, hdigits⟩ := isNumeric_iff.mp h
  have hall := hdigits.forall_mem digit point
  rcases hsign with rfl | rfl | rfl
  · exact hall
  · exact List.forall_mem_cons.mpr ⟨plus, hall⟩
  · exact List.forall_mem_cons.mpr ⟨minus, hall⟩

/-! ### The regular expression -/

open RegularExpression (char)

/-- One of the ten digits. -/
def digit : RegularExpression Char := ("0123456789".toList.map char).sum

/-- One digit or more. -/
def digits : RegularExpression Char := digit * digit.star

/-- One sign or none. -/
def sign : RegularExpression Char := 1 + (char '+' + char '-')

/-- Digits, with a point and any digits behind them or not, or a point and digits. -/
def unsigned : RegularExpression Char := digits * (1 + char '.' * digit.star) + char '.' * digits

/-- The texts of decimal numbers. -/
def numeral : RegularExpression Char := sign * unsigned

theorem isDigit_iff_mem {c : Char} : c.isDigit = true ↔ c ∈ "0123456789".toList := by
  constructor
  · intro h
    obtain ⟨hlow, hhigh⟩ := toNat_of_isDigit h
    have hall : ∀ n < 10, Char.ofNat (48 + n) ∈ "0123456789".toList := by decide
    have hmem := hall (c.toNat - 48) (by omega)
    rwa [Nat.add_sub_cancel' hlow, Char.ofNat_toNat] at hmem
  · have hall : "0123456789".toList.all Char.isDigit = true := by decide
    exact List.all_eq_true.mp hall c

theorem mem_sum_char_iff {choices : List Char} :
    cs ∈ (choices.map char).sum.matches' ↔ ∃ c ∈ choices, cs = [c] := by
  induction choices with
  | nil =>
    rw [List.map_nil, List.sum_nil, RegularExpression.matches'_zero]
    simp
  | cons c choices ih =>
    rw [List.map_cons, List.sum_cons, RegularExpression.matches'_add, Language.mem_add, ih,
      RegularExpression.matches'_char, List.exists_mem_cons_iff]
    rfl

theorem mem_digit_iff : cs ∈ digit.matches' ↔ ∃ c, cs = [c] ∧ c.isDigit = true := by
  rw [digit, mem_sum_char_iff]
  simp only [isDigit_iff_mem, and_comm]

theorem mem_star_digit_iff : cs ∈ digit.star.matches' ↔ ∀ c ∈ cs, c.isDigit = true := by
  rw [RegularExpression.matches'_star, Language.mem_kstar]
  constructor
  · rintro ⟨chunks, rfl, hchunks⟩ c hc
    obtain ⟨chunk, hchunk, hc⟩ := List.mem_flatten.mp hc
    obtain ⟨d, rfl, hd⟩ := mem_digit_iff.mp (hchunks chunk hchunk)
    rwa [List.mem_singleton.mp hc]
  · intro h
    refine ⟨cs.map fun c => [c], ?_, ?_⟩
    · rw [← List.flatMap_def, List.flatMap_singleton']
    · intro chunk hchunk
      obtain ⟨c, hc, rfl⟩ := List.mem_map.mp hchunk
      exact mem_digit_iff.mpr ⟨c, rfl, h c hc⟩

theorem mem_digits_iff : cs ∈ digits.matches' ↔ cs ≠ [] ∧ ∀ c ∈ cs, c.isDigit = true := by
  rw [digits, RegularExpression.matches'_mul, Language.mem_mul]
  constructor
  · rintro ⟨first, hfirst, rest, hrest, rfl⟩
    obtain ⟨c, rfl, hc⟩ := mem_digit_iff.mp hfirst
    exact ⟨List.cons_ne_nil c rest, List.forall_mem_cons.mpr ⟨hc, mem_star_digit_iff.mp hrest⟩⟩
  · rintro ⟨hne, h⟩
    obtain ⟨c, rest, rfl⟩ := List.exists_cons_of_ne_nil hne
    obtain ⟨hc, hrest⟩ := List.forall_mem_cons.mp h
    exact ⟨[c], mem_digit_iff.mpr ⟨c, rfl, hc⟩, rest, mem_star_digit_iff.mpr hrest, rfl⟩

theorem mem_point_mul_iff {r : RegularExpression Char} :
    cs ∈ (char '.' * r).matches' ↔ ∃ rest ∈ r.matches', cs = '.' :: rest := by
  rw [RegularExpression.matches'_mul, Language.mem_mul]
  constructor
  · rintro ⟨point, rfl, rest, hrest, rfl⟩
    exact ⟨rest, hrest, rfl⟩
  · rintro ⟨rest, hrest, rfl⟩
    exact ⟨['.'], rfl, rest, hrest, rfl⟩

theorem mem_unsigned_iff : cs ∈ unsigned.matches' ↔ Unsigned cs := by
  rw [unsigned, RegularExpression.matches'_add, Language.mem_add, RegularExpression.matches'_mul, Language.mem_mul,
    mem_point_mul_iff]
  constructor
  · rintro (⟨whole, hwhole, rest, hrest, rfl⟩ | ⟨fraction, hfraction, rfl⟩)
    · obtain ⟨hne, hdigits⟩ := mem_digits_iff.mp hwhole
      rcases hrest with rfl | hrest
      · rw [List.append_nil]
        exact .whole hne hdigits
      · obtain ⟨fraction, hfraction, rfl⟩ := mem_point_mul_iff.mp hrest
        exact .pointed (Or.inl hne) hdigits (mem_star_digit_iff.mp hfraction)
    · obtain ⟨hne, hdigits⟩ := mem_digits_iff.mp hfraction
      exact @Unsigned.pointed [] fraction (Or.inr hne) nofun hdigits
  · intro h
    cases h with
    | whole hne hdigits => exact Or.inl ⟨cs, mem_digits_iff.mpr ⟨hne, hdigits⟩, [], Or.inl rfl, List.append_nil cs⟩
    | @pointed whole fraction hne hwhole hfraction =>
      -- An empty part in front of the point is the second form.
      by_cases hnil : whole = []
      · subst hnil
        exact Or.inr ⟨fraction, mem_digits_iff.mpr ⟨hne.resolve_left fun h => h rfl, hfraction⟩, rfl⟩
      · have hrest : '.' :: fraction ∈ (char '.' * digit.star).matches' :=
          mem_point_mul_iff.mpr ⟨fraction, mem_star_digit_iff.mpr hfraction, rfl⟩
        exact Or.inl ⟨whole, mem_digits_iff.mpr ⟨hnil, hwhole⟩, _, Or.inr hrest, rfl⟩

theorem mem_sign_iff : cs ∈ sign.matches' ↔ cs = [] ∨ cs = ['+'] ∨ cs = ['-'] := Iff.rfl

/-- A token is numeric exactly if the whole of it is a sign or none and then digits, with a point behind them, among
    them, in front of them or nowhere. -/
theorem isNumericToken_iff_mem_numeral (token : String) :
    isNumericToken token = true ↔ token.toList ∈ numeral.matches' := by
  rw [isNumericToken, isNumeric_iff, numeral, RegularExpression.matches'_mul, Language.mem_mul]
  constructor
  · rintro ⟨digits, hsign, hdigits⟩
    have hdigits := mem_unsigned_iff.mpr hdigits
    rcases hsign with htoken | htoken | htoken
    · exact ⟨[], mem_sign_iff.mpr (Or.inl rfl), digits, hdigits, htoken.symm⟩
    · exact ⟨['+'], mem_sign_iff.mpr (Or.inr (Or.inl rfl)), digits, hdigits, htoken.symm⟩
    · exact ⟨['-'], mem_sign_iff.mpr (Or.inr (Or.inr rfl)), digits, hdigits, htoken.symm⟩
  · rintro ⟨first, hfirst, digits, hdigits, htoken⟩
    refine ⟨digits, ?_, mem_unsigned_iff.mp hdigits⟩
    rcases mem_sign_iff.mp hfirst with rfl | rfl | rfl
    · exact Or.inl htoken.symm
    · exact Or.inr (Or.inl htoken.symm)
    · exact Or.inr (Or.inr htoken.symm)

example : ["+.5", "-3.", "07", ".", "+", "1.5.2", "1e5", " 1", "\u0661"].map isNumericToken =
    [true, true, true, false, false, false, false, false, false] := by decide

end Operator
end Criteria
