import Criteria.Json.Token

/-! Reading documents. The reader goes through the tokens once and keeps the arrays and objects that are
    still open on a stack. Of a key that occurs several times in one object the first place and the last
    value count. -/

namespace Criteria
namespace Json

/-- An array or object that is still open. -/
inductive Frame where
  /-- An array with the items so far. -/
  | array (items : List Document)
  /-- An object with the members so far, and the key whose value is being read. -/
  | object (members : List (String × Document)) (key : String)

/-- What the reader is waiting for. -/
inductive Reader where
  /-- A value. -/
  | value (stack : List Frame)
  /-- The first item of an array, or its end. -/
  | arrayStart (stack : List Frame)
  /-- The first key of an object, or its end. -/
  | objectStart (stack : List Frame)
  /-- Another key of an object. -/
  | key (members : List (String × Document)) (stack : List Frame)
  /-- The colon after a key. -/
  | colon (members : List (String × Document)) (key : String) (stack : List Frame)
  /-- What follows a complete value. -/
  | after (document : Document) (stack : List Frame)

namespace Reader

/-- The members with `key` set to `document`, in its place if the key was there. -/
def put (key : String) (document : Document) : List (String × Document) → List (String × Document)
  | [] => [(key, document)]
  | (k, old) :: rest =>
    if k = key then (k, document) :: rest else (k, old) :: put key document rest

/-- The state after the first token of a value. -/
def start (stack : List Frame) : Token → Option Reader
  | .beginArray => some (.arrayStart stack)
  | .beginObject => some (.objectStart stack)
  | .null => some (.after .null stack)
  | .bool b => some (.after (.bool b) stack)
  | .number n => some (.after (.number n) stack)
  | .string s => some (.after (.string s) stack)
  | _ => none

/-- The state after a token. -/
def step : Reader → Token → Option Reader
  | .value stack, token => start stack token
  | .arrayStart stack, .endArray => some (.after (.array []) stack)
  | .arrayStart stack, token => start (.array [] :: stack) token
  | .objectStart stack, .endObject => some (.after (.object []) stack)
  | .objectStart stack, .string name => some (.colon [] name stack)
  | .key members stack, .string name => some (.colon members name stack)
  | .colon members name stack, .colon => some (.value (.object members name :: stack))
  | .after document (.array items :: stack), .comma => some (.value (.array (items ++ [document]) :: stack))
  | .after document (.array items :: stack), .endArray =>
    some (.after (.array (items ++ [document])) stack)
  | .after document (.object members name :: stack), .comma => some (.key (put name document members) stack)
  | .after document (.object members name :: stack), .endObject =>
    some (.after (.object (put name document members)) stack)
  | _, _ => none

/-- The state after several tokens. -/
def run (state : Reader) : List Token → Option Reader
  | [] => some state
  | token :: rest => do
    let next ← state.step token
    next.run rest

/-- The document that was read, if nothing is open. -/
def finished? : Reader → Option Document
  | .after document [] => some document
  | _ => none

end Reader
end Json

/-- The document that a JSON text spells. -/
def Document.ofText? (text : String) : Option Document := do
  let tokens ← Json.Token.scan? text.toList
  let state ← Json.Reader.run (.value []) tokens
  state.finished?

end Criteria
