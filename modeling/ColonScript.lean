import ColonScript.CommandLine
import ColonScript.Decimal
import ColonScript.Decimal.Layout
import ColonScript.Decimal.Reading
import ColonScript.Decimal.Shortest
import ColonScript.Kind
import ColonScript.Machine
import ColonScript.Main
import ColonScript.Native
import ColonScript.Number.Dyadic
import ColonScript.Number.Integer
import ColonScript.Number.Remainder
import ColonScript.ReadError
import ColonScript.Record
import ColonScript.Run
import ColonScript.RunError
import ColonScript.Scopes
import ColonScript.Session
import ColonScript.Syntax
import ColonScript.Syntax.Block
import ColonScript.Syntax.Equality
import ColonScript.Syntax.Expression
import ColonScript.Syntax.Parsed
import ColonScript.Syntax.Statement
import ColonScript.Text.Blank
import ColonScript.Text.Extender
import ColonScript.Text.Printable
import ColonScript.Text.Quoted
import ColonScript.Text.Ranges
import ColonScript.Token
import ColonScript.Token.Lexer
import ColonScript.Value
import ColonScript.Value.Conversion
import ColonScript.Value.Operation
import ColonScript.Proofs.Reading.Phrase
import ColonScript.Proofs.Reading.Expressions
import ColonScript.Proofs.Reading.Clause
import ColonScript.Proofs.Reading.Extent
import ColonScript.Proofs.Reading.Statements
import ColonScript.Proofs.Reading.SinglePass
import ColonScript.Proofs.Reading.Grammar
import ColonScript.Proofs.Reading.Printing
import ColonScript.Proofs.Reading.Lookahead
import ColonScript.Proofs.Reading.RoundTrip
import ColonScript.Proofs.Reading.Balance
import ColonScript.Proofs.Reading.OneAhead
import ColonScript.Proofs.Lexing.Pattern
import ColonScript.Proofs.Lexing.Longest
import ColonScript.Proofs.Number.Numerals
import ColonScript.Proofs.Lexing.Cutting
import ColonScript.Proofs.Lexing.Munch
import ColonScript.Proofs.Running.Traversal
import ColonScript.Proofs.Running.Changes
import ColonScript.Proofs.Scopes.Layers
import ColonScript.Proofs.Scopes.Shape
import ColonScript.Proofs.Running.StackNeutral
import ColonScript.Proofs.Scopes.Locality
import ColonScript.Proofs.Running.Isolation
import ColonScript.Proofs.Running.Metered
import ColonScript.Proofs.Running.Termination
import ColonScript.Proofs.Running.Footprint
import ColonScript.Proofs.Running.WellTyped
import ColonScript.Proofs.Scopes.Stack
import ColonScript.Proofs.Scopes.Walks
import ColonScript.Proofs.Lines.Alignment
import ColonScript.Proofs.Lines.Reading
import ColonScript.Proofs.Lines.Store
import ColonScript.Proofs.Lines.Running
import ColonScript.Proofs.Lines.Layout
import ColonScript.Proofs.Lexing.Seam
import ColonScript.Proofs.Reading.Concatenation
import ColonScript.Proofs.Session.Batch
import ColonScript.Proofs.Lexing.Spelling
import ColonScript.Proofs.Session.Blame
import ColonScript.Proofs.Running.ReadBack
import ColonScript.Proofs.Running.FailFast
import ColonScript.Proofs.Number.Exactness
import ColonScript.Proofs.Running.Counting
import ColonScript.Proofs.Running.Reaching
import ColonScript.Proofs.Running.Frames
import ColonScript.Proofs.Running.CallLimit
import ColonScript.Proofs.Running.CallDepth
import ColonScript.Proofs.Running.Appending
import ColonScript.Proofs.Running.Branching
import ColonScript.Proofs.Value.Equality
import ColonScript.Proofs.Number.Conversion
