import LineScript.Text.Scan
import LineScript.Text.Digit
import LineScript.Text.Word
import LineScript.Text.Quoted
import LineScript.Value.Operation
import LineScript.Literal
import LineScript.Expression.Parser
import LineScript.Service.Response
import LineScript.Proofs.Number.Safe
import LineScript.Proofs.Value.Safe
import LineScript.Proofs.Expression.Stop
import LineScript.Proofs.Run.Effect
import LineScript.Proofs.Run.Safe
import LineScript.Proofs.Block.Every
import LineScript.Proofs.Line.First
import LineScript.Proofs.Line.Dialect
import LineScript.Proofs.Run.Containment
import LineScript.Proofs.Expression.Derivation
import LineScript.Proofs.Expression.Meaning
import LineScript.Proofs.Block.Layout
import LineScript.Proofs.Block.Idle
import LineScript.Proofs.Run.Agreement
import LineScript.Proofs.Run.Limit
import LineScript.Proofs.Line.Print
import LineScript.Proofs.Block.Inline
import LineScript.Proofs.Run.Append
import LineScript.Proofs.Block.Contained
import LineScript.Proofs.Block.Unclosed
import LineScript.Proofs.Run.Bound
import LineScript.Proofs.Run.Clock
import LineScript.Proofs.Line.Part
import LineScript.Proofs.Block.Part
import LineScript.Proofs.Text.OneLine
import LineScript.Proofs.Value.OneLine
import LineScript.Proofs.Expression.OneLine
import LineScript.Proofs.Run.OneLine
import LineScript.Proofs.Service.Setting
import LineScript.Proofs.Service.Feasible
import LineScript.Proofs.Service.Run
import LineScript.Proofs.Double.Rounding
import LineScript.Proofs.Block.Nested
import LineScript.Proofs.Number.Division
import LineScript.Proofs.Run.Frame
import LineScript.Proofs.Run.Identity
import LineScript.Proofs.Number.Numeral
import LineScript.Proofs.Number.Exact
import LineScript.Proofs.Double.Decimal
import LineScript.Proofs.Expression.Lexeme
import LineScript.Proofs.Expression.Token
import LineScript.Proofs.Expression.Notation
import LineScript.Proofs.Run.Written
import LineScript.Proofs.Expression.Integer
import LineScript.Proofs.Number.Layout
import LineScript.Proofs.Value.Rendering
import LineScript.Proofs.Expression.Viable
import LineScript.Proofs.Run.Shortcut
import LineScript.Proofs.Run.Guard
import LineScript.Proofs.Text.Keyword
import LineScript.Proofs.Run.Dropped
import LineScript.Proofs.Value.Equality
import LineScript.Proofs.Line.Directive
import LineScript.Proofs.Value.Item
import LineScript.Proofs.Number.Longest
