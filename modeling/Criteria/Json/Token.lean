import Criteria.Json.Numeral
import Criteria.Json.Quoted

/-! The tokens of JSON text: brackets, commas, colons and scalars. White space separates tokens and means
    nothing else. -/

namespace Criteria
namespace Json

/-- The smallest parts of a text that mean something. -/
inductive Token where
  | beginArray
  | endArray
  | beginObject
  | endObject
  | comma
  | colon
  | null
  | bool (b : Bool)
  | number (n : Number)
  | string (s : String)
deriving DecidableEq

namespace Token

/-- White space between tokens. -/
def isSpace (c : Char) : Bool := c = ' ' || c = '\t' || c = '\n' || c = '\r'

/-- The characters of which names and numerals consist. -/
def isWordChar (c : Char) : Bool := c.isAlphanum || c = '+' || c = '-' || c = '.'

/-- The token that a name or numeral spells. -/
def ofWord? (word : List Char) : Option Token :=
  if word = "null".toList then some .null
  else if word = "true".toList then some (.bool true)
  else if word = "false".toList then some (.bool false)
  else do
    let numeral ← Numeral.ofChars? word
    let n ← numeral.toNumber?
    pure (.number n)

/-- The token that starts with `c`, and what follows it. -/
def first? (c : Char) (rest : List Char) : Option (Token × List Char) :=
  if c = '[' then some (.beginArray, rest)
  else if c = ']' then some (.endArray, rest)
  else if c = '{' then some (.beginObject, rest)
  else if c = '}' then some (.endObject, rest)
  else if c = ',' then some (.comma, rest)
  else if c = ':' then some (.colon, rest)
  else if c = '"' then
    (Quoted.read rest).map fun (text, rest) => (.string (String.ofList text), rest)
  else
    (ofWord? (c :: rest.takeWhile isWordChar)).map fun token => (token, rest.dropWhile isWordChar)

/-- A token uses its first character up. -/
theorem length_first? {c : Char} {rest rest' : List Char} {token : Token}
    (h : first? c rest = some (token, rest')) : rest'.length ≤ rest.length := by
  unfold first? at h
  repeat' split at h
  all_goals simp only [Option.some.injEq, Prod.mk.injEq, Option.map_eq_some_iff, Prod.exists] at h
  iterate 6
    next => obtain ⟨-, rfl⟩ := h; exact Nat.le_refl _
  · obtain ⟨_, _, hr, -, rfl⟩ := h
    exact Nat.le_of_lt (Quoted.length_read hr)
  · obtain ⟨_, -, -, rfl⟩ := h
    exact (List.dropWhile_sublist _).length_le

/-- The tokens of a text. -/
def scan? (cs : List Char) : Option (List Token) :=
  match cs with
  | [] => some []
  | c :: rest =>
    if isSpace c then scan? rest
    else
      match h : first? c rest with
      | none => none
      | some (token, rest') =>
        have : rest'.length < rest.length + 1 := Nat.lt_succ_of_le (length_first? h)
        (scan? rest').map (token :: ·)
termination_by cs.length

end Token
end Json
end Criteria
