import Criteria.Fault
import Criteria.Value

/-! Documents: trees of nulls, booleans, numbers, strings, arrays and objects. Objects keep the order of
    their members. -/

namespace Criteria

/-- A number of a document: a whole number that fits 64 bits with or without a sign, or a finite double. -/
inductive Number where
  | integer (n : Int) (lower : -2 ^ 63 ≤ n) (upper : n < 2 ^ 64)
  | double (x : Binary64) (finite : x.isFinite = true)
deriving DecidableEq

/-- A document of the JSON kind. -/
inductive Document where
  | null
  | bool (b : Bool)
  | number (n : Number)
  | string (s : String)
  | array (items : List Document)
  | object (members : List (String × Document))
deriving Inhabited

namespace Document

/-- The kind of a node, in which whole numbers of more than 63 bits are a kind of their own. -/
def shape : Document → Shape
  | .null => .null
  | .bool _ => .bool
  | .number (.integer n _ _) => if n < 2 ^ 63 then .number else .largeInteger
  | .number (.double _ _) => .number
  | .string _ => .string
  | .array _ => .array
  | .object _ => .object

/-- The value that a node stands for. Arrays and objects stand for none, and neither do whole numbers of
    more than 63 bits, which would lose digits. -/
def toValue? : Document → Option Value
  | .null => some .null
  | .bool b => some (.bool b)
  | .number (.integer n _ _) => if n < 2 ^ 63 then some (.int (Int64.ofInt n)) else none
  | .number (.double x _) => some (.float x)
  | .string s => some (.text s)
  | .array _ => none
  | .object _ => none

/-- The node that is reached by taking first items as long as there are arrays; an empty array leads
    nowhere. -/
def firstLeaf? : Document → Option Document
  | .array [] => none
  | .array (item :: _) => item.firstLeaf?
  | leaf => some leaf

end Document
end Criteria
