import SqlSyntax.Analysis
import SqlSyntax.Canonical.Node
import SqlSyntax.Canonical.Piece
import SqlSyntax.Canonical.Query
import SqlSyntax.Canonical.Statement
import SqlSyntax.CommandLine.Arguments
import SqlSyntax.CommandLine.Outcome
import SqlSyntax.CommandLine.Report
import SqlSyntax.CommandLine.Session
import SqlSyntax.Document.Basic
import SqlSyntax.Document.Text
import SqlSyntax.Error
import SqlSyntax.Interchange.Query
import SqlSyntax.Interchange.Statement
import SqlSyntax.Keyword
import SqlSyntax.Main
import SqlSyntax.Number.Binary64
import SqlSyntax.Number.Decimal
import SqlSyntax.Number.Power
import SqlSyntax.Number.Shortest
import SqlSyntax.Parser.Basic
import SqlSyntax.Parser.Expr
import SqlSyntax.Parser.Name
import SqlSyntax.Parser.Nesting
import SqlSyntax.Parser.Query
import SqlSyntax.Parser.Statement
import SqlSyntax.Proofs.Analysis.Layout
import SqlSyntax.Proofs.Analysis.Script
import SqlSyntax.Proofs.Canonical.Clauses
import SqlSyntax.Proofs.Canonical.Lexing
import SqlSyntax.Proofs.Canonical.Quoting
import SqlSyntax.Proofs.Canonical.Rereading.Basic
import SqlSyntax.Proofs.Canonical.Rereading.Expr
import SqlSyntax.Proofs.Canonical.Rereading.Nesting
import SqlSyntax.Proofs.Canonical.Rereading.Query
import SqlSyntax.Proofs.Canonical.Rereading.Statement
import SqlSyntax.Proofs.Canonical.RoundTrip
import SqlSyntax.Proofs.Canonical.Spelled
import SqlSyntax.Proofs.Canonical.Tidy
import SqlSyntax.Proofs.CommandLine.Transcript
import SqlSyntax.Proofs.Content.Expr
import SqlSyntax.Proofs.Content.Name
import SqlSyntax.Proofs.Content.Nesting
import SqlSyntax.Proofs.Content.Query
import SqlSyntax.Proofs.Content.Scan
import SqlSyntax.Proofs.Content.Statement
import SqlSyntax.Proofs.Content.Text
import SqlSyntax.Proofs.Content.Tree
import SqlSyntax.Proofs.Content.Yields
import SqlSyntax.Proofs.Document.Fields
import SqlSyntax.Proofs.Grammar.Admissible
import SqlSyntax.Proofs.Grammar.Basic
import SqlSyntax.Proofs.Grammar.Coverage
import SqlSyntax.Proofs.Grammar.Edges
import SqlSyntax.Proofs.Grammar.Expr
import SqlSyntax.Proofs.Grammar.Layout
import SqlSyntax.Proofs.Grammar.Name
import SqlSyntax.Proofs.Grammar.Nesting
import SqlSyntax.Proofs.Grammar.Query
import SqlSyntax.Proofs.Grammar.Statement
import SqlSyntax.Proofs.Interchange.Alike
import SqlSyntax.Proofs.Interchange.Chains
import SqlSyntax.Proofs.Interchange.Equality
import SqlSyntax.Proofs.Interchange.Faithful
import SqlSyntax.Proofs.Interchange.Links
import SqlSyntax.Proofs.Interchange.Qualifiers
import SqlSyntax.Proofs.Interchange.Shapes
import SqlSyntax.Proofs.Interchange.SpanFields
import SqlSyntax.Proofs.Interchange.Spans
import SqlSyntax.Proofs.Interchange.Texts
import SqlSyntax.Proofs.Interchange.WithoutSpans
import SqlSyntax.Proofs.Parser.Basic
import SqlSyntax.Proofs.Parser.Buffer
import SqlSyntax.Proofs.Parser.Completeness.Expr
import SqlSyntax.Proofs.Parser.Completeness.Nesting
import SqlSyntax.Proofs.Parser.Completeness.Query
import SqlSyntax.Proofs.Parser.Completeness.Statement
import SqlSyntax.Proofs.Parser.Depth
import SqlSyntax.Proofs.Parser.Division
import SqlSyntax.Proofs.Parser.Ending
import SqlSyntax.Proofs.Parser.Expectation
import SqlSyntax.Proofs.Parser.Expected
import SqlSyntax.Proofs.Parser.Fallbacks
import SqlSyntax.Proofs.Parser.Guidance.Basic
import SqlSyntax.Proofs.Parser.Guidance.Expr
import SqlSyntax.Proofs.Parser.Guidance.Name
import SqlSyntax.Proofs.Parser.Guidance.Nesting
import SqlSyntax.Proofs.Parser.Guidance.Query
import SqlSyntax.Proofs.Parser.Guidance.Statement
import SqlSyntax.Proofs.Parser.Height
import SqlSyntax.Proofs.Parser.Infix
import SqlSyntax.Proofs.Parser.Loops
import SqlSyntax.Proofs.Parser.Mirror
import SqlSyntax.Proofs.Parser.Name
import SqlSyntax.Proofs.Parser.Parallel.Basic
import SqlSyntax.Proofs.Parser.Parallel.Expr
import SqlSyntax.Proofs.Parser.Parallel.Name
import SqlSyntax.Proofs.Parser.Parallel.Query
import SqlSyntax.Proofs.Parser.Parallel.Statement
import SqlSyntax.Proofs.Parser.Places
import SqlSyntax.Proofs.Parser.Precedence
import SqlSyntax.Proofs.Parser.Progress
import SqlSyntax.Proofs.Parser.Relocation
import SqlSyntax.Proofs.Parser.Reuse
import SqlSyntax.Proofs.Parser.Safety
import SqlSyntax.Proofs.Parser.Script
import SqlSyntax.Proofs.Parser.Sessions
import SqlSyntax.Proofs.Parser.Soundness.Expr
import SqlSyntax.Proofs.Parser.Soundness.Nesting
import SqlSyntax.Proofs.Parser.Soundness.Query
import SqlSyntax.Proofs.Parser.Soundness.Statement
import SqlSyntax.Proofs.Parser.Spans
import SqlSyntax.Proofs.Parser.Termination
import SqlSyntax.Proofs.Parser.Text
import SqlSyntax.Proofs.Parser.Tokens
import SqlSyntax.Proofs.Parser.Unbounded
import SqlSyntax.Proofs.Text.Lowering
import SqlSyntax.Proofs.Token.Cursor
import SqlSyntax.Proofs.Token.Cutting
import SqlSyntax.Proofs.Token.Digits
import SqlSyntax.Proofs.Token.Joining
import SqlSyntax.Proofs.Token.Number
import SqlSyntax.Proofs.Token.Numerals
import SqlSyntax.Proofs.Token.Pieces
import SqlSyntax.Proofs.Token.Restart
import SqlSyntax.Proofs.Token.Slices
import SqlSyntax.Proofs.Token.Spacing
import SqlSyntax.Proofs.Token.Stream
import SqlSyntax.Proofs.Token.Tiling
import SqlSyntax.Proofs.Token.Units
import SqlSyntax.Proofs.Token.Written
import SqlSyntax.Proofs.Tree.Induction
import SqlSyntax.Proofs.Tree.Levels
import SqlSyntax.Proofs.Tree.Moves
import SqlSyntax.Proofs.Tree.Parts
import SqlSyntax.Proofs.Tree.Precedence
import SqlSyntax.Proofs.Tree.Spans
import SqlSyntax.Proofs.Tree.Visits
import SqlSyntax.Proofs.Tree.WellFormed
import SqlSyntax.Proofs.Validation.Codes
import SqlSyntax.Proofs.Validation.Conditions
import SqlSyntax.Proofs.Validation.Grouping
import SqlSyntax.Proofs.Validation.Repetitions
import SqlSyntax.Proofs.Validation.Scoping
import SqlSyntax.Proofs.Validation.Searches
import SqlSyntax.Proofs.Validation.Spans
import SqlSyntax.Source
import SqlSyntax.Text.Ascii
import SqlSyntax.Text.Digits
import SqlSyntax.Text.Lines
import SqlSyntax.Text.Quoted
import SqlSyntax.Text.Table
import SqlSyntax.Token
import SqlSyntax.Token.Lexeme
import SqlSyntax.Token.Stream
import SqlSyntax.Tree.Equality
import SqlSyntax.Tree.Expressions
import SqlSyntax.Tree.Name
import SqlSyntax.Tree.Node
import SqlSyntax.Tree.Query
import SqlSyntax.Tree.Statement
import SqlSyntax.Tree.Visitor
import SqlSyntax.Unicode.Alphabetic
import SqlSyntax.Unicode.LowerCase
import SqlSyntax.Unicode.Numeric
import SqlSyntax.Unicode.RangeTable
import SqlSyntax.Unicode.WhiteSpace
import SqlSyntax.Unicode.Width
import SqlSyntax.Validation.Aggregate
import SqlSyntax.Validation.Rules
import SqlSyntax.Validation.Scope
import SqlSyntax.Validation.Warning
import SqlSyntax.Word
