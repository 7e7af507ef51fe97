import Prepass.Build
import Prepass.Pattern.Reader
import Prepass.Proofs.Binary64.Exact
import Prepass.Proofs.Binary64.Limit
import Prepass.Proofs.Block.Balance
import Prepass.Proofs.Block.Frames
import Prepass.Proofs.Build.Outcomes
import Prepass.Proofs.Comment.Cutting
import Prepass.Proofs.Comment.Literals
import Prepass.Proofs.Comment.Loop
import Prepass.Proofs.Comment.Openers
import Prepass.Proofs.Comment.Partition
import Prepass.Proofs.Comment.Shape
import Prepass.Proofs.Decimal.Spelling
import Prepass.Proofs.Directive.Excerpt
import Prepass.Proofs.Directive.Layout
import Prepass.Proofs.Environment.Bindings
import Prepass.Proofs.Environment.Reading
import Prepass.Proofs.Expression.Escapes
import Prepass.Proofs.Expression.Exact
import Prepass.Proofs.Expression.Faults
import Prepass.Proofs.Expression.Grammar
import Prepass.Proofs.Expression.Lexeme
import Prepass.Proofs.Expression.Parsed
import Prepass.Proofs.Expression.Quoted
import Prepass.Proofs.Expression.Scan
import Prepass.Proofs.Expression.Supported
import Prepass.Proofs.Line.Splitting
import Prepass.Proofs.Outcome
import Prepass.Proofs.Output.Batch
import Prepass.Proofs.Output.Fragment
import Prepass.Proofs.Run.Calls
import Prepass.Proofs.Run.Dead
import Prepass.Proofs.Run.Endings
import Prepass.Proofs.Run.Escape
import Prepass.Proofs.Run.Failure
import Prepass.Proofs.Run.Lines
import Prepass.Proofs.Run.Matching
import Prepass.Proofs.Run.Policy
import Prepass.Proofs.Run.Removal
import Prepass.Proofs.Run.Scanning
import Prepass.Proofs.Run.Session
import Prepass.Proofs.Run.Structured
import Prepass.Proofs.Run.Unmentioned
import Prepass.Proofs.Run.Whole
import Prepass.Proofs.SourceMap.Decoding
import Prepass.Proofs.SourceMap.Origin
import Prepass.Proofs.SourceMap.RoundTrip
import Prepass.Proofs.SourceMap.Transform
import Prepass.Proofs.Substitution.Chains
import Prepass.Proofs.Substitution.OneLine
import Prepass.Proofs.Substitution.Order
import Prepass.Proofs.Substitution.References
import Prepass.Proofs.Text.Classes
import Prepass.Proofs.Text.Integer
import Prepass.Proofs.Text.Join
import Prepass.Proofs.Value.Faults
import Prepass.Proofs.Value.Numeral
import Prepass.Proofs.Value.Rendering
import Prepass.Proofs.Value.Symmetry
import Prepass.Proofs.Value.Words
