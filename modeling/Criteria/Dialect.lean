import Criteria.Binary64.Format
import Criteria.Fragment
import Criteria.Text.Hex

/-! How values are written into SQL text. A value normally takes a placeholder and is bound; null is
    written out and binds nothing. Literals, which show a value in place, are for debugging text only. -/

namespace Criteria

/-- The choices in which SQL dialects differ here. -/
structure Dialect where
  name : String
  /-- The text of a placeholder. -/
  placeholder : String := "?"
  /-- What stands for a single quote inside a text literal. -/
  stringEscape : String := "''"

/-- What is written for one value. -/
structure Slot where
  token : String
  /-- Whether the token takes a bound value. -/
  binds : Bool
deriving DecidableEq

namespace Dialect

/-- The dialect of the SQL standard, with question marks as placeholders. -/
def generic : Dialect := { name := "generic" }

/-- What is written for a value: a placeholder, or NULL for null. -/
def slot (d : Dialect) (v : Value) : Slot :=
  if v.isNull then ⟨"NULL", false⟩ else ⟨d.placeholder, true⟩

/-- What is written for each value of a list, and the values to be bound for it. Of a list taken as a set
    only the first occurrences count. -/
def slots (d : Dialect) (values : List Value) (unique : Bool) : List Slot × List Value :=
  let values := if unique then Value.distinct values else values
  let slots := values.map d.slot
  (slots, ((values.zip slots).filter (·.2.binds)).map (·.1))

/-- A value as a piece of SQL. -/
def valueFragment (d : Dialect) (v : Value) : Fragment :=
  let slot := d.slot v
  ⟨slot.token, if slot.binds then [v] else []⟩

/-- The members of a set as a piece of SQL, set apart by commas. -/
def setFragment (d : Dialect) (values : List Value) : Fragment :=
  let (slots, bound) := d.slots values true
  ⟨", ".intercalate (slots.map (·.token)), bound⟩

/-- Doubles in SQL text are positional whatever their size, without a point if they are whole, and of two
    equally near decimals the greater one is taken. -/
def floatFormat : Binary64.Format :=
  { tie := .up, isPositional := fun _ => true, wholeEnd := [] }

/-- The text of a double, which names infinities and what is no number. -/
def floatLiteral (x : Binary64) : List Char :=
  if x.isNaN then "NaN".toList
  else if x.isFinite then floatFormat.write x
  else if x.isNegative then "-inf".toList
  else "inf".toList

/-- The text of a value in place. -/
def literalChars (d : Dialect) : Value → List Char
  | .null => "NULL".toList
  | .bool true => "TRUE".toList
  | .bool false => "FALSE".toList
  | .int n => Decimal.ofInt n.toInt
  | .float x => floatLiteral x
  | .text s =>
    '\'' :: s.toList.flatMap (fun c => if c = '\'' then d.stringEscape.toList else [c]) ++ ['\'']
  | .blob bytes => 'X' :: '\'' :: Text.hex bytes ++ ['\'']

/-- The text of a value in place. -/
def literal (d : Dialect) (v : Value) : String := String.ofList (d.literalChars v)

end Dialect
end Criteria
