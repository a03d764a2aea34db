import Criteria.Statement
import Criteria.Document.Conditions
import Criteria.Json.Reader
import Criteria.Json.Writer
import Criteria.Proofs.Parity
import Criteria.Proofs.Items
import Criteria.Proofs.Rendered
import Criteria.Proofs.Keyword
import Criteria.Proofs.Grammar
import Criteria.Proofs.Rebinding
import Criteria.Proofs.Substitution
import Criteria.Proofs.Alike
import Criteria.Proofs.Inlining
import Criteria.Proofs.Sentence
import Criteria.Proofs.Outline
import Criteria.Proofs.Unambiguous
import Criteria.Proofs.FirstFault
import Criteria.Proofs.BoundOrder
import Criteria.Proofs.Agreement
import Criteria.Proofs.Interchange
import Criteria.Proofs.Alternation
import Criteria.Proofs.EventOrder
import Criteria.Proofs.Sameness
import Criteria.Proofs.Expressible
import Criteria.Proofs.Parentheses
import Criteria.Proofs.NumberedGroups
import Criteria.Proofs.OperandFault
import Criteria.Proofs.Concatenation
import Criteria.Proofs.Literal
import Criteria.Proofs.Refilling
import Criteria.Proofs.Surroundings
import Criteria.Proofs.Equality
import Criteria.Proofs.ListWriting
import Criteria.Proofs.Repetition
import Criteria.Proofs.OperatorForm
import Criteria.Proofs.ReadBack
import Criteria.Proofs.Segments
import Criteria.Proofs.Unwrapping
import Criteria.Proofs.NumericToken
