import Criteria.Dialect
import Mathlib.Data.List.Basic

/-! Literals read back. A literal is null, a truth value, a whole number with or without a sign, a text between quotes in
    which two quotes stand for one, or bytes as hexadecimal digits between quotes. The literal of any value but a double
    is read as that value and no further, whatever text comes after it, unless a quote, a letter or a digit carries it
    on. So no content ends a literal early, and no two values have one literal. -/

namespace Criteria

namespace Dialect

/-- A character of a text literal. -/
def doubled (c : Char) : List Char := if c = '\'' then ['\'', '\''] else [c]

theorem doubled_of_ne {c : Char} (h : c ≠ '\'') : doubled c = [c] := if_neg h

/-- A text stands between quotes, with each quote of its own doubled. -/
theorem literalChars_text (s : String) :
    generic.literalChars (.text s) = '\'' :: s.toList.flatMap doubled ++ ['\''] := by
  have hescape : generic.stringEscape.toList = ['\'', '\''] := by decide
  have htext : generic.literalChars (.text s) =
      '\'' :: s.toList.flatMap (fun c => if c = '\'' then generic.stringEscape.toList else [c]) ++ ['\''] := rfl
  rw [htext, hescape]
  rfl

theorem literalChars_blob (bytes : List UInt8) :
    generic.literalChars (.blob bytes) = 'X' :: '\'' :: Text.hex bytes ++ ['\''] := rfl

end Dialect

theorem Decimal.eq_minus_or_isDigit_of_mem_ofInt {n : Int} {c : Char} (h : c ∈ ofInt n) : c = '-' ∨ c.isDigit = true := by
  cases n with
  | ofNat k => exact Or.inr (isDigit_of_mem_ofNat h)
  | negSucc k =>
    rcases List.mem_cons.mp h with hc | hc
    · exact Or.inl hc
    · exact Or.inr (isDigit_of_mem_ofNat hc)

theorem Text.isAlphanum_of_mem_hex {bytes : List UInt8} {c : Char} (h : c ∈ hex bytes) : c.isAlphanum = true := by
  have hdigit : ∀ n, n < 16 → (hexDigit n).toUpper.isAlphanum = true := by decide
  obtain ⟨b, -, hc⟩ := List.mem_flatMap.mp h
  have hb := b.toNat_lt
  rcases List.mem_pair.mp hc with rfl | rfl
  · exact hdigit _ (by omega)
  · exact hdigit _ (by omega)

/-! ### Words

A word is a run of characters of one kind, which ends before the first character of another kind. -/

namespace Text
variable {p : Char → Bool} {word rest : List Char}

/-- A word in front of a rest that does not carry it on is all that is taken off. -/
theorem takeWhile_word (hword : ∀ c ∈ word, p c = true) (h : ∀ c ∈ rest.head?, p c = false) :
    (word ++ rest).takeWhile p = word := by
  rw [List.takeWhile_append_of_pos hword]
  cases rest with
  | nil => exact List.append_nil word
  | cons c rest => rw [List.takeWhile_cons_of_neg (by simp [h c rfl]), List.append_nil]

theorem dropWhile_word (hword : ∀ c ∈ word, p c = true) (h : ∀ c ∈ rest.head?, p c = false) :
    (word ++ rest).dropWhile p = rest := by
  rw [List.dropWhile_append_of_pos hword]
  cases rest with
  | nil => rfl
  | cons c rest => exact List.dropWhile_cons_of_neg (by simp [h c rfl])

end Text

/-! ### Reading -/

namespace Literal

/-- The text up to the closing quote and what follows it. Two quotes stand for one. -/
def quoted? : List Char → Option (List Char × List Char)
  | [] => none
  | '\'' :: '\'' :: rest => (quoted? rest).map fun read => ('\'' :: read.1, read.2)
  | '\'' :: rest => some ([], rest)
  | c :: rest => (quoted? rest).map fun read => (c :: read.1, read.2)

/-- A whole number as a value, if it fits. -/
def int? (n : Int) : Option Value :=
  if -2 ^ 63 ≤ n ∧ n < 2 ^ 63 then some (.int (.ofInt n)) else none

/-- The number that a word of digits spells. -/
def digits? (word : List Char) : Option Nat :=
  if word.isEmpty || !word.all Char.isDigit then none else some (Decimal.toNat word)

/-- The value of a word of letters and digits. -/
def word? (word : List Char) : Option Value :=
  if word = "NULL".toList then some .null
  else if word = "TRUE".toList then some (.bool true)
  else if word = "FALSE".toList then some (.bool false)
  else (digits? word).bind fun n => int? n

/-- The value of the literal at the start of the characters, and the characters after it. -/
def readChars? : List Char → Option (Value × List Char)
  | '\'' :: rest => (quoted? rest).map fun read => (.text (String.ofList read.1), read.2)
  | 'X' :: '\'' :: rest => (quoted? rest).bind fun read => (Text.bytesOfHex? read.1).map fun bytes => (.blob bytes, read.2)
  | '-' :: rest =>
    ((digits? (rest.takeWhile Char.isAlphanum)).bind fun n => int? (-n)).map (·, rest.dropWhile Char.isAlphanum)
  | cs => (word? (cs.takeWhile Char.isAlphanum)).map (·, cs.dropWhile Char.isAlphanum)

/-- The value of the literal at the start of a text, and the text after it. -/
def read? (s : String) : Option (Value × String) :=
  (readChars? s.toList).map fun read => (read.1, String.ofList read.2)

/-- The characters do not carry a literal on: there are none, or the first is no quote, letter or digit. -/
def Ends (rest : List Char) : Prop := ∀ c ∈ rest.head?, c ≠ '\'' ∧ c.isAlphanum = false

variable {rest : List Char}

/-- A single quote closes the text. -/
theorem quoted?_quote (h : Ends rest) : quoted? ('\'' :: rest) = some ([], rest) := by
  cases rest with
  | nil => rfl
  | cons c rest =>
    obtain ⟨hc, -⟩ := h c rfl
    simp [quoted?, hc]

/-- A text with its quotes doubled is read back up to its closing quote. -/
theorem quoted?_doubled (h : Ends rest) (text : List Char) :
    quoted? (text.flatMap Dialect.doubled ++ '\'' :: rest) = some (text, rest) := by
  induction text with
  | nil => exact quoted?_quote h
  | cons c text ih =>
    rw [List.flatMap_cons, List.append_assoc]
    -- A quote of the text was doubled, so that two quotes are read as one. Any other character is read as it is.
    by_cases hc : c = '\''
    · subst hc
      simp [Dialect.doubled, quoted?, ih]
    · simp [Dialect.doubled_of_ne hc, quoted?, hc, ih]

/-- Digits have no quotes among them, so none of them was doubled. -/
theorem quoted?_hex (h : Ends rest) (bytes : List UInt8) :
    quoted? (Text.hex bytes ++ '\'' :: rest) = some (Text.hex bytes, rest) := by
  have hplain : (Text.hex bytes).flatMap Dialect.doubled = Text.hex bytes := by
    have hsingle : ∀ c ∈ Text.hex bytes, Dialect.doubled c = [c] := by
      intro c hc
      refine Dialect.doubled_of_ne ?_
      rintro rfl
      exact absurd (Text.isAlphanum_of_mem_hex hc) (by decide)
    rw [List.flatMap_congr hsingle, List.flatMap_singleton']
  rw [← quoted?_doubled h (Text.hex bytes), hplain]

variable {word : List Char}

theorem Ends.isAlphanum (h : Ends rest) : ∀ c ∈ rest.head?, c.isAlphanum = false := fun c hc => (h c hc).2

/-- A word is not taken for the beginning of a text, nor is what follows it. -/
theorem word_append_ne_quote (hword : ∀ c ∈ word, c.isAlphanum = true) (h : Ends rest) (tail : List Char) :
    word ++ rest ≠ '\'' :: tail := by
  intro heq
  cases word with
  | nil =>
    rw [List.nil_append] at heq
    subst heq
    exact (h '\'' rfl).1 rfl
  | cons c word =>
    obtain ⟨rfl, -⟩ := List.cons.inj heq
    exact absurd (hword '\'' List.mem_cons_self) (by decide)

/-- A word is read for what it stands for, up to the character that ends it. -/
theorem readChars?_word (hne : word ≠ []) (hword : ∀ c ∈ word, c.isAlphanum = true) (h : Ends rest) :
    readChars? (word ++ rest) = (word? word).map (·, rest) := by
  obtain ⟨c, word, rfl⟩ := List.exists_cons_of_ne_nil hne
  obtain ⟨hc, hrest⟩ := List.forall_mem_cons.mp hword
  rw [readChars?.eq_def]
  split
  · rename_i heq
    exact absurd heq (word_append_ne_quote hword h _)
  · -- What stands after an X that begins a word is no quote either.
    rename_i heq
    exact absurd (List.cons.inj heq).2 (word_append_ne_quote hrest h _)
  · rename_i heq
    rw [(List.cons.inj heq).1] at hc
    exact absurd hc (by decide)
  · rw [Text.takeWhile_word hword h.isAlphanum, Text.dropWhile_word hword h.isAlphanum]

theorem digits?_ofNat (n : Nat) : digits? (Decimal.ofNat n) = some n := by
  have hall : (Decimal.ofNat n).all Char.isDigit = true := List.all_eq_true.mpr fun c hc => Decimal.isDigit_of_mem_ofNat hc
  have hne : (Decimal.ofNat n).isEmpty = false := by simpa using Decimal.ofNat_ne_nil n
  rw [digits?, hne, hall, Decimal.toNat_ofNat]
  rfl

theorem isAlphanum_of_mem_ofNat {n : Nat} {c : Char} (h : c ∈ Decimal.ofNat n) : c.isAlphanum = true := by
  rw [Char.isAlphanum, Decimal.isDigit_of_mem_ofNat h, Bool.or_true]

/-- The digits of a number are none of the names and stand for the number. -/
theorem word?_ofNat (n : Nat) : word? (Decimal.ofNat n) = int? n := by
  have hletters : ∀ {word : List Char}, word.all Char.isDigit = false → Decimal.ofNat n ≠ word := by
    rintro _ hword rfl
    rw [List.all_eq_true.mpr fun c hc => Decimal.isDigit_of_mem_ofNat hc] at hword
    cases hword
  rw [word?, if_neg (hletters (by decide)), if_neg (hletters (by decide)), if_neg (hletters (by decide)), digits?_ofNat,
    Option.bind_some]

theorem int?_toInt (n : Int64) : int? n.toInt = some (.int n) := by
  rw [int?, if_pos ⟨n.le_toInt, n.toInt_lt⟩, Int64.ofInt_toInt]

/-- A whole number is read with its sign, so that the least one is read as well, whose absolute value is no value. -/
theorem readChars?_ofInt (h : Ends rest) (n : Int64) :
    readChars? (Decimal.ofInt n.toInt ++ rest) = some (.int n, rest) := by
  have hint := int?_toInt n
  have hword : ∀ k, ∀ c ∈ Decimal.ofNat k, c.isAlphanum = true := fun k c hc => isAlphanum_of_mem_ofNat hc
  cases hn : n.toInt with
  | ofNat k =>
    rw [hn, Int.ofNat_eq_natCast] at hint
    rw [Decimal.ofInt, readChars?_word (Decimal.ofNat_ne_nil k) (hword k) h, word?_ofNat, hint, Option.map_some]
  | negSucc k =>
    rw [hn, Int.negSucc_eq] at hint
    rw [Decimal.ofInt, List.cons_append, readChars?, Text.takeWhile_word (hword _) h.isAlphanum,
      Text.dropWhile_word (hword _) h.isAlphanum, digits?_ofNat, Option.bind_some, Int.natCast_add_one, hint, Option.map_some]

/-- The literal of a value is read as the value, by the kind of the value: a name, a number, or characters between
    quotes. -/
theorem readChars?_literalChars {v : Value} (hv : ∀ x, v ≠ .float x) (h : Ends rest) :
    readChars? (Dialect.generic.literalChars v ++ rest) = some (v, rest) := by
  cases v with
  | null => exact readChars?_word (List.cons_ne_nil 'N' _) (List.all_eq_true.mp (by decide)) h
  | bool b => cases b <;> exact readChars?_word (by decide) (List.all_eq_true.mp (by decide)) h
  | int n => exact readChars?_ofInt h n
  | float x => exact absurd rfl (hv x)
  | text s =>
    rw [Dialect.literalChars_text, List.append_assoc, List.cons_append, List.singleton_append, readChars?,
      quoted?_doubled h, Option.map_some, String.ofList_toList]
  | blob bytes =>
    rw [Dialect.literalChars_blob, List.append_assoc, List.cons_append, List.cons_append, List.singleton_append, readChars?,
      quoted?_hex h, Option.bind_some, Text.bytesOfHex?_hex]
    rfl

theorem read?_literal {v : Value} (hv : ∀ x, v ≠ .float x) {rest : String} (h : Ends rest.toList) :
    read? (Dialect.generic.literal v ++ rest) = some (v, rest) := by
  rw [read?, Dialect.literal, String.toList_append, String.toList_ofList, readChars?_literalChars hv h, Option.map_some,
    String.ofList_toList]

end Literal

/-- A literal in front of any text that does not carry it on is read as its value, and leaves the text. So wherever two
    literals stand at the start of one text, they are of one value and end at one place. -/
theorem Dialect.read?_literal_append {v : Value} (hv : ∀ x, v ≠ .float x) :
    (∀ rest : String, Literal.Ends rest.toList → Literal.read? (generic.literal v ++ rest) = some (v, rest)) ∧
    (∀ w : Value, (∀ x, w ≠ .float x) → ∀ rest rest' : String, Literal.Ends rest.toList → Literal.Ends rest'.toList →
      generic.literal v ++ rest = generic.literal w ++ rest' → v = w ∧ rest = rest') ∧
    ∀ w : Value, (∀ x, w ≠ .float x) → generic.literal v = generic.literal w → v = w := by
  have hunique : ∀ w : Value, (∀ x, w ≠ .float x) → ∀ rest rest' : String, Literal.Ends rest.toList →
      Literal.Ends rest'.toList → generic.literal v ++ rest = generic.literal w ++ rest' → v = w ∧ rest = rest' := by
    intro w hw rest rest' hrest hrest' heq
    -- Reading the one text in two ways gives one value and one rest.
    have hread := Literal.read?_literal hv hrest
    rw [heq, Literal.read?_literal hw hrest'] at hread
    obtain ⟨rfl, rfl⟩ := Prod.mk.inj (Option.some.inj hread)
    exact ⟨rfl, rfl⟩
  refine ⟨fun rest hrest => Literal.read?_literal hv hrest, hunique, fun w hw heq => ?_⟩
  have hend : Literal.Ends "".toList := fun c hc => nomatch hc
  exact (hunique w hw "" "" hend hend (congrArg (· ++ "") heq)).1

theorem Dialect.read?_literal_append_quotes :
    generic.literal (.text "' OR ''='") = "''' OR ''''='''" ∧
      Literal.read? ("''' OR ''''='''" ++ ") -- '") = some (.text "' OR ''='", ") -- '") ∧
      generic.literal (.int Int64.minValue) = "-9223372036854775808" ∧
      Literal.read? ("-9223372036854775808" ++ "-1") = some (.int Int64.minValue, "-1") ∧
      generic.literal (.text "' OR ''='") ≠ generic.literal (.blob [0x27]) := by
  have htext : ∀ x, Value.text "' OR ''='" ≠ .float x := fun x h => nomatch h
  have hint : ∀ x, Value.int Int64.minValue ≠ .float x := fun x h => nomatch h
  have hblob : ∀ x, Value.blob [0x27] ≠ .float x := fun x h => nomatch h
  have hquotes : generic.literal (.text "' OR ''='") = "''' OR ''''='''" := by decide +kernel
  have hmin : generic.literal (.int Int64.minValue) = "-9223372036854775808" := by decide +kernel
  refine ⟨hquotes, ?_, hmin, ?_, fun heq => ?_⟩
  · rw [← hquotes]
    exact (read?_literal_append htext).1 ") -- '" fun c hc => by cases hc; decide
  · rw [← hmin]
    exact (read?_literal_append hint).1 "-1" fun c hc => by cases hc; decide
  · exact nomatch (read?_literal_append htext).2.2 _ hblob heq

end Criteria
