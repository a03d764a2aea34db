import Criteria.Json.Reader
import Criteria.Json.Writer
import Criteria.Proofs.Expressible
import Criteria.Proofs.Literal
import Mathlib.Data.List.Forall2

/-! JSON text read back. What is written for a value is scanned into the same tokens in front of any text that does not
    carry on its last word, and these tokens make up one document wherever the reader waits for a value. So an array of
    written values is read as the array of their documents, and each of these stands for the value that was written,
    unless that is made of bytes: an array stands for no value. -/

namespace Criteria

namespace Decimal

/-- The digits of a number do not begin with zero, unless it is zero. -/
theorem eq_zero_of_head?_ofNat {n : Nat} (h : (ofNat n).head? = some '0') : n = 0 := by
  induction n using Nat.strongRecOn with
  | ind n ih =>
    by_cases hlt : n < 10
    · -- A digit by itself is zero or does not look like it.
      have hdigit : ∀ k, k < 10 → Nat.digitChar k = '0' → k = 0 := by decide
      rw [ofNat, Nat.toDigits_of_lt_base hlt] at h
      exact hdigit n hlt (Option.some.inj h)
    · -- A number of several digits begins like its tenth part, which is no zero.
      have hle : 10 ≤ n := Nat.le_of_not_lt hlt
      have hsplit : ofNat n = ofNat (n / 10) ++ [Nat.digitChar (n % 10)] := Nat.toDigits_of_base_le (by decide) hle
      rw [hsplit, List.head?_append_of_ne_nil _ (ofNat_ne_nil _)] at h
      have hzero := ih (n / 10) (by omega) h
      omega

/-- A number is written in digits alone, so all of it is a run of digits. -/
theorem takeWhile_ofNat (n : Nat) : (ofNat n).takeWhile Char.isDigit = ofNat n := by
  have hword : (ofNat n ++ []).takeWhile Char.isDigit = ofNat n :=
    Text.takeWhile_word (fun c hc => isDigit_of_mem_ofNat hc) fun c hc => nomatch hc
  rwa [List.append_nil] at hword

theorem dropWhile_ofNat (n : Nat) : (ofNat n).dropWhile Char.isDigit = [] := by
  have hword : (ofNat n ++ []).dropWhile Char.isDigit = [] :=
    Text.dropWhile_word (fun c hc => isDigit_of_mem_ofNat hc) fun c hc => nomatch hc
  rwa [List.append_nil] at hword

end Decimal

namespace Json

namespace Numeral

/-- The numeral of a whole number. -/
def ofInt (n : Int) : Numeral := ⟨decide (n < 0), Decimal.ofNat n.natAbs, none, none⟩

/-- The digits of a number are a numeral without fraction and exponent, as they have no leading zero. -/
theorem unsigned?_ofNat (negative : Bool) (n : Nat) :
    unsigned? negative (Decimal.ofNat n) = some ⟨negative, Decimal.ofNat n, none, none⟩ := by
  have hzero : (Decimal.ofNat n).head? = some '0' → (Decimal.ofNat n).length ≤ 1 := by
    intro hhead
    rw [Decimal.eq_zero_of_head?_ofNat hhead]
    decide
  have hne : Decimal.ofNat n ≠ [] := Decimal.ofNat_ne_nil n
  simpa [unsigned?, Decimal.takeWhile_ofNat, Decimal.dropWhile_ofNat, hne, ending?] using hzero

theorem ofChars?_ofInt (n : Int) : ofChars? (Decimal.ofInt n) = some (ofInt n) := by
  cases n with
  | ofNat k =>
    -- A number that is not negative begins with a digit, so no sign is taken off.
    have hsign : ∀ rest, Decimal.ofNat k ≠ '-' :: rest := by
      intro rest heq
      have hdigit : Char.isDigit '-' = true := Decimal.isDigit_of_mem_ofNat (heq ▸ List.mem_cons_self)
      exact absurd hdigit (by decide)
    rw [Decimal.ofInt, ofChars?.eq_def]
    split
    · exact absurd ‹_› (hsign _)
    · rw [unsigned?_ofNat]
      rfl
  | negSucc k =>
    rw [ofInt, decide_eq_true (Int.negSucc_lt_zero k)]
    exact unsigned?_ofNat true (k + 1)

/-- A numeral stands for its own number. Only zero with a sign would not, and no number is written so. -/
theorem toNumber?_ofInt (n : Int) (lower : -2 ^ 63 ≤ n) (upper : n < 2 ^ 64) :
    (ofInt n).toNumber? = some (.integer n lower upper) := by
  have hsigned : (if decide (n < 0) = true then -(n.natAbs : Int) else n.natAbs) = n := by
    by_cases h : n < 0
    · rw [if_pos (by simpa using h)]
      omega
    · rw [if_neg (by simpa using h)]
      omega
  have hzero : ¬(decide (n < 0) = true ∧ n.natAbs = 0) := by
    rintro ⟨hneg, habs⟩
    have := of_decide_eq_true hneg
    omega
  simp only [toNumber?, ofInt, Decimal.toNat_ofNat, if_neg hzero, hsigned]
  rw [dif_pos ⟨lower, upper⟩]

end Numeral

/-! ### Scanned words and marks -/

/-- The characters do not carry on a word: there are none, or the first one belongs to no word. -/
def Breaks (rest : List Char) : Prop := ∀ c ∈ rest.head?, Token.isWordChar c = false

theorem breaks_cons {c : Char} (h : Token.isWordChar c = false) (rest : List Char) : Breaks (c :: rest) := by
  rintro d hd
  cases hd
  exact h

/-- The characters are scanned into the tokens, whatever comes after them that does not carry on a word. -/
def Scans (cs : List Char) (tokens : List Token) : Prop :=
  ∀ rest, Breaks rest → Token.scan? (cs ++ rest) = (Token.scan? rest).map (tokens ++ ·)

namespace Token

/-- A token at the front is scanned off, and the scan goes on behind it. -/
theorem scan?_cons {c : Char} {rest rest' : List Char} {token : Token} (hspace : isSpace c = false)
    (h : first? c rest = some (token, rest')) : scan? (c :: rest) = (scan? rest').map (token :: ·) := by
  rw [scan?, if_neg (by rw [hspace]; exact Bool.false_ne_true)]
  split
  · rename_i hnone
    rw [h] at hnone
    cases hnone
  · rename_i hsome
    rw [h] at hsome
    cases hsome
    rfl

theorem ofWord?_ofInt (n : Int) (lower : -2 ^ 63 ≤ n) (upper : n < 2 ^ 64) :
    ofWord? (Decimal.ofInt n) = some (.number (.integer n lower upper)) := by
  -- A name has letters, and a number has none.
  have hname : ∀ {word : List Char}, word.all (fun c => c = '-' || c.isDigit) = false → Decimal.ofInt n ≠ word := by
    rintro _ hword rfl
    rw [List.all_eq_true.mpr fun c hc => by simpa using Decimal.eq_minus_or_isDigit_of_mem_ofInt hc] at hword
    cases hword
  rw [ofWord?, if_neg (hname (by decide)), if_neg (hname (by decide)), if_neg (hname (by decide)),
    Numeral.ofChars?_ofInt]
  simp [Numeral.toNumber?_ofInt n lower upper]

end Token

/-- A word of one token is scanned as far as its characters go, which is up to the next character of no word. -/
theorem scans_word {word : List Char} {token : Token} (hne : word ≠ [])
    (hword : ∀ c ∈ word, Token.isWordChar c = true) (h : Token.ofWord? word = some token) : Scans word [token] := by
  intro rest hrest
  obtain ⟨c, word, rfl⟩ := List.exists_cons_of_ne_nil hne
  obtain ⟨hc, hword⟩ := List.forall_mem_cons.mp hword
  -- The first character of a word is neither a mark nor a blank.
  have hmark : ∀ m, Token.isWordChar m = false → c ≠ m := by
    rintro m hm rfl
    rw [hc] at hm
    cases hm
  have hspace : Token.isSpace c = false := by
    simp [Token.isSpace, hmark ' ' rfl, hmark '\t' rfl, hmark '\n' rfl, hmark '\r' rfl]
  have hfirst : Token.first? c (word ++ rest) = some (token, rest) := by
    rw [Token.first?, if_neg (hmark '[' rfl), if_neg (hmark ']' rfl), if_neg (hmark '{' rfl),
      if_neg (hmark '}' rfl), if_neg (hmark ',' rfl), if_neg (hmark ':' rfl),
      if_neg (hmark '"' rfl), Text.takeWhile_word hword hrest, Text.dropWhile_word hword hrest, h]
    rfl
  exact Token.scan?_cons hspace hfirst

theorem scans_ofInt (n : Int) (lower : -2 ^ 63 ≤ n) (upper : n < 2 ^ 64) :
    Scans (Decimal.ofInt n) [.number (.integer n lower upper)] := by
  refine scans_word ?_ (fun c hc => ?_) (Token.ofWord?_ofInt n lower upper)
  · cases n with
    | ofNat k => exact Decimal.ofNat_ne_nil k
    | negSucc k => exact List.cons_ne_nil _ _
  · rcases Decimal.eq_minus_or_isDigit_of_mem_ofInt hc with rfl | hdigit
    · decide
    · simp [Token.isWordChar, Char.isAlphanum, hdigit]

theorem scans_quoted (text : List Char) : Scans (Quoted.write text) [.string (String.ofList text)] := by
  intro rest _
  have hread : Token.first? '"' (text.flatMap Quoted.escaped ++ '"' :: rest) = some (.string (String.ofList text), rest) := by
    simp [Token.first?, Quoted.read_flatMap_escaped]
  rw [Quoted.write, List.append_assoc, List.cons_append]
  exact Token.scan?_cons rfl hread

/-- The tokens of an array, by those of its items. -/
def arrayTokens (items : List (List Token)) : List Token := .beginArray :: [Token.comma].intercalate items ++ [.endArray]

theorem scan?_endArray (rest : List Char) : Token.scan? (']' :: rest) = (Token.scan? rest).map (.endArray :: ·) :=
  Token.scan?_cons rfl rfl

/-- The items of an array are scanned one after the other: each item but the last ends before a comma, and the last
    before the end of the array. Neither of the two carries on a word. -/
theorem scan?_items {cs : List Char} {tokens : List Token} {items : List (List Char)} {tokenLists : List (List Token)}
    (h : Scans cs tokens) (hitems : List.Forall₂ Scans items tokenLists) (rest : List Char) :
    Token.scan? ([','].intercalate (cs :: items) ++ ']' :: rest) =
      (Token.scan? rest).map ([Token.comma].intercalate (tokens :: tokenLists) ++ .endArray :: ·) := by
  induction hitems generalizing cs tokens with
  | nil =>
    rw [List.intercalate_singleton, List.intercalate_singleton, h _ (breaks_cons rfl rest), scan?_endArray, Option.map_map]
    rfl
  | @cons cs' tokens' items tokenLists h' _ ih =>
    have hcomma : ∀ next, Token.scan? (',' :: next) = (Token.scan? next).map (.comma :: ·) :=
      fun next => Token.scan?_cons rfl rfl
    rw [List.intercalate_cons_cons, List.intercalate_cons_cons, List.append_assoc, List.append_assoc,
      List.singleton_append, h _ (breaks_cons rfl _), hcomma, ih h', Option.map_map, Option.map_map]
    congr 1
    funext tokens
    simp

/-- An array is scanned into the tokens of its items between the marks of an array. -/
theorem scans_bracketed {items : List (List Char)} {tokenLists : List (List Token)}
    (h : List.Forall₂ Scans items tokenLists) : Scans (bracketed items) (arrayTokens tokenLists) := by
  intro rest _
  have hbegin : ∀ next, Token.scan? ('[' :: next) = (Token.scan? next).map (.beginArray :: ·) :=
    fun next => Token.scan?_cons rfl rfl
  rw [bracketed, List.append_assoc, List.cons_append, List.singleton_append, hbegin]
  cases h with
  | nil =>
    rw [List.intercalate_nil, List.nil_append, scan?_endArray, Option.map_map]
    rfl
  | cons h hitems =>
    rw [scan?_items h hitems, Option.map_map]
    congr 1
    funext tokens
    simp [arrayTokens]

/-! ### Documents that tokens make up -/

/-- The tokens make up the document wherever the reader waits for a value. -/
def Spells (tokens : List Token) (d : Document) : Prop :=
  ∀ stack rest, Reader.run (.value stack) (tokens ++ rest) = Reader.run (.after d stack) rest

/-- What makes up a document begins with a token that can begin one. -/
theorem Spells.exists_cons {tokens : List Token} {d : Document} (h : Spells tokens d) :
    ∃ first more, tokens = first :: more ∧ first ≠ .endArray := by
  cases tokens with
  | nil =>
    -- Without tokens the reader would still wait for the value.
    have hstay := h [] []
    cases hstay
  | cons first more =>
    refine ⟨first, more, rfl, ?_⟩
    rintro rfl
    -- No value begins with the end of an array.
    have hstuck := h [] []
    cases hstuck

/-- An array that has begun takes its first item as a value. -/
theorem run_arrayStart {first : Token} (h : first ≠ .endArray) (stack : List Frame) (rest : List Token) :
    Reader.run (.arrayStart stack) (first :: rest) = Reader.run (.value (.array [] :: stack)) (first :: rest) := by
  cases first with
  | endArray => exact absurd rfl h
  | _ => rfl

/-- The items of an array are read one after the other behind those that were read before, and the end of the array
    makes one document of them. -/
theorem run_items {tokens : List Token} {d : Document} {tokenLists : List (List Token)} {items : List Document}
    (h : Spells tokens d) (hitems : List.Forall₂ Spells tokenLists items) (before : List Document) (stack : List Frame)
    (rest : List Token) :
    Reader.run (.value (.array before :: stack)) ([Token.comma].intercalate (tokens :: tokenLists) ++ .endArray :: rest) =
      Reader.run (.after (.array (before ++ d :: items)) stack) rest := by
  induction hitems generalizing tokens d before with
  | nil =>
    rw [List.intercalate_singleton, h]
    rfl
  | @cons tokens' d' tokenLists items h' _ ih =>
    rw [List.intercalate_cons_cons, List.append_assoc, List.append_assoc, h]
    have hnext := ih h' (before ++ [d])
    rw [List.append_assoc, List.singleton_append] at hnext
    exact hnext

/-- The tokens of items make up the array of the items. The reader tells an empty array by its first token, so the first
    token of a first item must not end an array. -/
theorem spells_array {tokenLists : List (List Token)} {items : List Document}
    (h : List.Forall₂ Spells tokenLists items) : Spells (arrayTokens tokenLists) (.array items) := by
  intro stack rest
  cases h with
  | nil => rfl
  | @cons tokens d tokenLists items h hitems =>
    obtain ⟨first, more, rfl, hfirst⟩ := h.exists_cons
    have hbegin : Reader.run (.value stack) (arrayTokens ((first :: more) :: tokenLists) ++ rest) =
        Reader.run (.arrayStart stack) ([Token.comma].intercalate ((first :: more) :: tokenLists) ++ .endArray :: rest) := by
      rw [arrayTokens, List.append_assoc]
      rfl
    -- The first token of the first item is looked at and not used up.
    rw [hbegin, List.intercalate_cons_cons_left, List.cons_append, run_arrayStart hfirst, ← List.cons_append,
      ← List.intercalate_cons_cons_left, run_items h hitems]
    rfl

/-- The characters are the text of the document, wherever a value may stand. -/
def Writes (cs : List Char) (d : Document) : Prop := ∃ tokens, Scans cs tokens ∧ Spells tokens d

/-- Written items between brackets are the text of the array. -/
theorem writes_bracketed {texts : List (List Char)} {items : List Document} (h : List.Forall₂ Writes texts items) :
    Writes (bracketed texts) (.array items) := by
  have hlists : ∃ tokenLists, List.Forall₂ Scans texts tokenLists ∧ List.Forall₂ Spells tokenLists items := by
    induction h with
    | nil => exact ⟨[], .nil, .nil⟩
    | cons hd _ ih =>
      obtain ⟨tokens, hscans, hspells⟩ := hd
      obtain ⟨tokenLists, hscansEach, hspellsEach⟩ := ih
      exact ⟨tokens :: tokenLists, .cons hscans hscansEach, .cons hspells hspellsEach⟩
  obtain ⟨tokenLists, hscans, hspells⟩ := hlists
  exact ⟨arrayTokens tokenLists, scans_bracketed hscans, spells_array hspells⟩

theorem writes_word {word : List Char} {token : Token} {d : Document} (hne : word ≠ [])
    (hword : word.all Token.isWordChar = true) (h : Token.ofWord? word = some token) (hspells : Spells [token] d) :
    Writes word d :=
  ⟨[token], scans_word hne (List.all_eq_true.mp hword) h, hspells⟩

theorem writes_ofInt (n : Int) (lower : -2 ^ 63 ≤ n) (upper : n < 2 ^ 64) :
    Writes (Decimal.ofInt n) (.number (.integer n lower upper)) :=
  ⟨_, scans_ofInt n lower upper, fun _ _ => rfl⟩

theorem writes_quoted (text : String) : Writes (Quoted.write text.toList) (.string text) := by
  have hscans := scans_quoted text.toList
  rw [String.ofList_toList] at hscans
  exact ⟨_, hscans, fun _ _ => rfl⟩

/-- The text of a document is read as the document: nothing carries its last word on, and the reader is finished after
    it. -/
theorem Writes.ofText?_eq {cs : List Char} {d : Document} (h : Writes cs d) :
    Document.ofText? (String.ofList cs) = some d := by
  obtain ⟨tokens, hscans, hspells⟩ := h
  have hscan := hscans [] fun c hc => nomatch hc
  have hrun := hspells [] []
  rw [List.append_nil] at hscan hrun
  rw [Document.ofText?, String.toList_ofList, hscan, Token.scan?, Option.map_some, List.append_nil]
  simp [hrun, Reader.run, Reader.finished?]

end Json

namespace Document

/-- A byte as a number. -/
def ofByte (b : UInt8) : Document := .number (.integer b.toNat (by omega) (by have := b.toNat_lt; omega))

/-- What is read for a value: a node that stands for it, or the array of its bytes, which stands for no value. -/
def ReadFor : Value → Document → Prop
  | .blob bytes, d => d = .array (bytes.map ofByte) ∧ d.toValue? = none
  | v, d => d.toValue? = some v

end Document

open Json Document

/-- What is written for a value is the text of a document that is read for it. -/
theorem Value.exists_writes_json {v : Value} (hv : ∀ x, v ≠ .float x) : ∃ d, Writes v.json d ∧ ReadFor v d := by
  cases v with
  | null => exact ⟨.null, writes_word (by decide) (by decide) rfl fun _ _ => rfl, rfl⟩
  | bool b => cases b <;> exact ⟨.bool _, writes_word (by decide) (by decide) rfl fun _ _ => rfl, rfl⟩
  | int n => exact ⟨ofValue (.int n), writes_ofInt n.toInt _ _, toValue?_ofValue trivial⟩
  | float x => exact absurd rfl (hv x)
  | text s => exact ⟨.string s, writes_quoted s, rfl⟩
  | blob bytes =>
    -- Bytes are written as an array of numbers, each of which is the text of its own document.
    have hbytes : List.Forall₂ Writes (bytes.map fun b => Decimal.ofNat b.toNat) (bytes.map ofByte) := by
      rw [List.forall₂_map_left_iff, List.forall₂_map_right_iff, List.forall₂_same]
      exact fun b _ => writes_ofInt b.toNat _ _
    exact ⟨.array (bytes.map ofByte), writes_bracketed hbytes, rfl, rfl⟩

/-- Values that are no doubles are read back from their text. It is read as an array with one item for each of them, which
    stands for the value itself, and for bytes is the array of their numbers and stands for no value. -/
theorem Document.ofText?_jsonArray {values : List Value} (h : ∀ v ∈ values, ∀ x, v ≠ .float x) :
    ∃ items, ofText? (Value.jsonArray values) = some (.array items) ∧ items.length = values.length ∧
      List.Forall₂ ReadFor values items := by
  have hitems : ∃ items, List.Forall₂ Writes (values.map Value.json) items ∧ List.Forall₂ ReadFor values items := by
    induction values with
    | nil => exact ⟨[], .nil, .nil⟩
    | cons v values ih =>
      obtain ⟨hv, hvalues⟩ := List.forall_mem_cons.mp h
      obtain ⟨d, hwrites, hread⟩ := Value.exists_writes_json hv
      obtain ⟨items, hwritesEach, hreadEach⟩ := ih hvalues
      exact ⟨d :: items, .cons hwrites hwritesEach, .cons hread hreadEach⟩
  obtain ⟨items, hwrites, hread⟩ := hitems
  exact ⟨items, (writes_bracketed hwrites).ofText?_eq, hread.length_eq.symm, hread⟩

theorem Document.ofText?_jsonArray_extremes :
    ∃ values items, values = [.null, .bool false, .int Int64.minValue, .int Int64.maxValue, .text "\"\\\n\u0001/é😀",
        .blob [0, 39, 255], .blob []] ∧
      Value.jsonArray values = "[null,false,-9223372036854775808,9223372036854775807,\"\\\"\\\\\\n\\u0001/é😀\",[0,39,255],[]]" ∧
      (∀ v ∈ values, ∀ x, v ≠ Value.float x) ∧ ofText? (Value.jsonArray values) = some (.array items) ∧
      items.length = values.length ∧ List.Forall₂ ReadFor values items := by
  have hvalues : ∀ v ∈ [.null, .bool false, .int Int64.minValue, .int Int64.maxValue, .text "\"\\\n\u0001/é😀",
      .blob [0, 39, 255], .blob []], ∀ x, v ≠ Value.float x := by simp
  obtain ⟨items, hread⟩ := ofText?_jsonArray hvalues
  exact ⟨_, items, rfl, by decide +kernel, hvalues, hread⟩

end Criteria
