import Criteria.Text.Hex

/-! Quoted strings of JSON text. A writer escapes the quote, the backslash and the control characters, and
    nothing else; a reader takes every escape, with pairs of surrogates for the code points that need two. -/

namespace Criteria
namespace Json
namespace Quoted

/-- One character between quotes. -/
def escaped (c : Char) : List Char :=
  if c = '"' then ['\\', '"']
  else if c = '\\' then ['\\', '\\']
  else if c = '\n' then ['\\', 'n']
  else if c = '\r' then ['\\', 'r']
  else if c = '\t' then ['\\', 't']
  else if c = '\x08' then ['\\', 'b']
  else if c = '\x0c' then ['\\', 'f']
  else if c.toNat < 0x20 then
    ['\\', 'u', '0', '0', Text.hexDigit (c.toNat / 16), Text.hexDigit (c.toNat % 16)]
  else [c]

/-- A text between quotes. -/
def write (text : List Char) : List Char := '"' :: text.flatMap escaped ++ ['"']

/-- The sixteen bits that four digits spell. -/
def unit? (a b c d : Char) : Option Nat := do
  let a ← Text.hexValue? a
  let b ← Text.hexValue? b
  let c ← Text.hexValue? c
  let d ← Text.hexValue? d
  pure (((a * 16 + b) * 16 + c) * 16 + d)

/-- Whether sixteen bits are the first of a pair that stands for one code point. -/
def isHighSurrogate (unit : Nat) : Bool := 0xD800 ≤ unit && unit < 0xDC00

/-- Whether sixteen bits are the second of a pair that stands for one code point. -/
def isLowSurrogate (unit : Nat) : Bool := 0xDC00 ≤ unit && unit < 0xE000

/-- The code point that a pair of surrogates stands for. -/
def paired (high low : Nat) : Char :=
  Char.ofNat (0x10000 + (high - 0xD800) * 0x400 + (low - 0xDC00))

/-- The character that a letter after a backslash stands for. -/
def letter? (c : Char) : Option Char :=
  if c = '"' ∨ c = '\\' ∨ c = '/' then some c
  else if c = 'b' then some '\x08'
  else if c = 'f' then some '\x0c'
  else if c = 'n' then some '\n'
  else if c = 'r' then some '\r'
  else if c = 't' then some '\t'
  else none

/-- Puts a character before a text that was read, if there are both. -/
def push (c : Option Char) (read : Option (List Char × List Char)) : Option (List Char × List Char) :=
  match c, read with
  | some c, some (text, rest) => some (c :: text, rest)
  | _, _ => none

/-- The text up to the closing quote, and what follows it. Control characters and surrogates without a
    partner make it no text. -/
def read : List Char → Option (List Char × List Char)
  | [] => none
  | '\\' :: 'u' :: a :: b :: c :: d :: rest =>
    match unit? a b c d with
    | none => none
    | some unit =>
      if isHighSurrogate unit then
        match rest with
        | '\\' :: 'u' :: e :: f :: g :: h :: rest =>
          match unit? e f g h with
          | none => none
          | some low => if isLowSurrogate low then push (some (paired unit low)) (read rest) else none
        | _ => none
      else if isLowSurrogate unit then none
      else push (some (Char.ofNat unit)) (read rest)
  | '\\' :: c :: rest => push (letter? c) (read rest)
  | c :: rest =>
    if c = '"' then some ([], rest)
    else if c = '\\' ∨ c.toNat < 0x20 then none
    else push (some c) (read rest)

theorem eq_some_of_push {c : Option Char} {r : Option (List Char × List Char)} {text rest : List Char}
    (h : push c r = some (text, rest)) : ∃ t, r = some (t, rest) := by
  match c, r, h with
  | some c, some (t, rest'), h =>
    simp only [push, Option.some.injEq, Prod.mk.injEq] at h
    exact ⟨t, by rw [h.2]⟩

/-! ### Reading what was written -/

theorem unit?_control {n : Nat} (h : n < 0x20) :
    unit? '0' '0' (Text.hexDigit (n / 16)) (Text.hexDigit (n % 16)) = some n := by
  have all : ∀ k, k < 0x20 → unit? '0' '0' (Text.hexDigit (k / 16)) (Text.hexDigit (k % 16)) = some k := by
    decide
  exact all n h

/-- One written character is read as that character. -/
theorem read_escaped_append (c : Char) (rest : List Char) :
    read (escaped c ++ rest) = push (some c) (read rest) := by
  unfold escaped
  repeat' split
  iterate 7
    next => subst_vars; rfl
  · next h =>
    have hu := unit?_control h
    have hh : isHighSurrogate c.toNat = false := by
      simp only [isHighSurrogate, Bool.and_eq_false_iff, decide_eq_false_iff_not]
      omega
    have hl : isLowSurrogate c.toNat = false := by
      simp only [isLowSurrogate, Bool.and_eq_false_iff, decide_eq_false_iff_not]
      omega
    simp [read, hu, hh, hl, Char.ofNat_toNat]
  · next hq hb _ _ _ _ _ hc => simp [read, hq, hb, hc]

/-- A written text is read up to its closing quote. -/
theorem read_flatMap_escaped (text rest : List Char) :
    read (text.flatMap escaped ++ '"' :: rest) = some (text, rest) := by
  induction text with
  | nil => rfl
  | cons c text ih => simp [List.flatMap_cons, List.append_assoc, read_escaped_append, ih, push]

/-- Reading a text uses its closing quote up. -/
theorem length_read {cs text rest : List Char} (h : read cs = some (text, rest)) :
    rest.length < cs.length := by
  fun_induction read cs generalizing text with
  | case1 | case2 | case3 | case5 | case6 | case7 | case11 => cases h
  | case10 =>
    cases h
    exact Nat.lt_succ_self _
  -- In the cases left a character is put before the text read from the characters behind it, which leaves the same rest.
  | case4 | case8 | case9 | case12 =>
    rename_i ih
    obtain ⟨t, ht⟩ := eq_some_of_push h
    have := ih ht
    simp only [List.length_cons]
    omega

end Quoted
end Json
end Criteria
