import Criteria.Dialect

/-! SQL text with literals in place of its placeholders, for logs and debugging. A placeholder between
    single quotes belongs to a text literal and is left alone. -/

namespace Criteria
namespace Inline

/-- Writes the values over the question marks that stand outside single quotes, until the values run
    out; `quoted` tells whether the text starts inside quotes. -/
def fill (quoted : Bool) : List Char → List Value → List Char
  | [], _ => []
  | c :: rest, values =>
    let quoted := if c = '\'' then !quoted else quoted
    if !quoted && c = '?' then
      match values with
      | v :: values => Dialect.generic.literalChars v ++ fill quoted rest values
      | [] => c :: fill quoted rest []
    else c :: fill quoted rest values

end Inline

/-- The text with each placeholder outside single quotes replaced by the literal of its value. Values
    beyond the placeholders are not used, placeholders beyond the values stay. -/
def inlined (sql : String) (values : List Value) : String :=
  String.ofList (Inline.fill false sql.toList values)

end Criteria
