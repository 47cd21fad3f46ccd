import ElmTypes.Unicode.Alphabetic
import ElmTypes.Unicode.Numeric
import ElmTypes.Unicode.Uppercase
import ElmTypes.Unicode.Printable
import ElmTypes.Unicode.Width
import ElmTypes.Span
import ElmTypes.Position
import ElmTypes.Validated
import ElmTypes.Text.Quoted
import ElmTypes.Number.Digits
import ElmTypes.Number.Binary64
import ElmTypes.Number.Decimal
import ElmTypes.Token.Word
import ElmTypes.Token.Basic
import ElmTypes.Lexeme.Basic
import ElmTypes.Lexeme.Name
import ElmTypes.Lexeme.Number
import ElmTypes.Lexeme.Comment
import ElmTypes.Lexeme.Shader
import ElmTypes.Lexeme.Quoted
import ElmTypes.Lexeme.Scan
import ElmTypes.Token.Lex
import ElmTypes.Source.TypeName
import ElmTypes.Container
import ElmTypes.Source.TypeExpr
import ElmTypes.Source.Declaration
import ElmTypes.Source.File
import ElmTypes.Grammar.Expected
import ElmTypes.Grammar.SyntaxError
import ElmTypes.Grammar.Cursor
import ElmTypes.Grammar.Reader
import ElmTypes.Grammar.TypeExpr
import ElmTypes.Grammar.Declaration
import ElmTypes.Grammar.File
import ElmTypes.Scope
import ElmTypes.DataType.Basic
import ElmTypes.DataType.Declaration
import ElmTypes.Text.Phrase
import ElmTypes.DataType.Outline
import ElmTypes.Problem
import ElmTypes.DataType.OfSource
import ElmTypes.Check
import ElmTypes.Text.Lines
import ElmTypes.Report.Style
import ElmTypes.Report.Diagnostic
import ElmTypes.Report.Snippet
import ElmTypes.Report.Render
import ElmTypes.Event
import ElmTypes.CommandLine.Options
import ElmTypes.CommandLine.Run
import ElmTypes.Main
import ElmTypes.Proofs.Span
import ElmTypes.Proofs.Source.Induction
import ElmTypes.Proofs.Source.Parts
import ElmTypes.Proofs.Validation.Accumulation
import ElmTypes.Proofs.Validation.Nodes
import ElmTypes.Proofs.Validation.Translation
import ElmTypes.Proofs.Validation.Reporting
import ElmTypes.Proofs.Validation.Shadowing
import ElmTypes.Proofs.Text.OneLine
import ElmTypes.Proofs.Lexical.Locality
import ElmTypes.Proofs.Lexical.Quoted
import ElmTypes.Proofs.Lexical.Scan
import ElmTypes.Proofs.Lexical.Gap
import ElmTypes.Proofs.Lexical.Tiling
import ElmTypes.Proofs.Lexical.Errors
import ElmTypes.Proofs.Lexical.Joining
import ElmTypes.Proofs.Lexical.Words
import ElmTypes.Proofs.Lexical.Wording
import ElmTypes.Proofs.Lexical.Qualified
import ElmTypes.Proofs.Lexical.Spelling
import ElmTypes.Proofs.Grammar.Reading
import ElmTypes.Proofs.Grammar.Derivation
import ElmTypes.Proofs.Grammar.Declaration
import ElmTypes.Proofs.Grammar.File
import ElmTypes.Proofs.Grammar.Extent
import ElmTypes.Proofs.Grammar.Yielding
import ElmTypes.Proofs.Grammar.Follow
import ElmTypes.Proofs.Grammar.Completeness
import ElmTypes.Proofs.Grammar.Syntax
import ElmTypes.Proofs.Grammar.TypeDeclaration
import ElmTypes.Proofs.Comparison.Alike
import ElmTypes.Proofs.Comparison.Reading
import ElmTypes.Proofs.Comparison.TypeExpr
import ElmTypes.Proofs.Comparison.Declaration
import ElmTypes.Proofs.Comparison.Blocks
import ElmTypes.Proofs.Report.Placement
import ElmTypes.Proofs.Printing.Spelling
import ElmTypes.Proofs.Printing.Derivation
import ElmTypes.Proofs.Printing.DataType
import ElmTypes.Proofs.Printing.Checked
import ElmTypes.Proofs.Printing.Annotation
import ElmTypes.Proofs.Printing.Resolution
import ElmTypes.Proofs.Printing.Declaration
import ElmTypes.Proofs.Printing.NormalForm
import ElmTypes.Proofs.Report.Lines
import ElmTypes.Proofs.Grammar.Rereading
import ElmTypes.Proofs.Grammar.Standing
import ElmTypes.Proofs.Comparison.Shifted
import ElmTypes.Proofs.Lexical.Slice
import ElmTypes.Proofs.Grammar.Annotations
import ElmTypes.Proofs.Grammar.Layout
import ElmTypes.Proofs.Grammar.Excerpt
import ElmTypes.Proofs.Grammar.Opening
import ElmTypes.Proofs.Grammar.Progress
import ElmTypes.Proofs.Comparison.Files
import ElmTypes.Proofs.Grammar.Division
import ElmTypes.Proofs.Comparison.Opening
import ElmTypes.Proofs.Comparison.Recovery
import ElmTypes.Proofs.Comparison.Meaning
import ElmTypes.Proofs.Comparison.Spacing
import ElmTypes.Proofs.Lexical.LineFeeds
import ElmTypes.Proofs.Lexical.LineEndings
import ElmTypes.Proofs.Report.LineEndings
import ElmTypes.Proofs.Guarded.Fault
import ElmTypes.Proofs.Guarded.Scanner
import ElmTypes.Proofs.Guarded.Literals
import ElmTypes.Proofs.Guarded.Scanning
import ElmTypes.Proofs.Guarded.Lexing
import ElmTypes.Proofs.Guarded.Parser
import ElmTypes.Proofs.Guarded.Agreement
import ElmTypes.Proofs.Guarded.Parsing
import ElmTypes.Proofs.Guarded.Files
import ElmTypes.Proofs.Source.Renaming
import ElmTypes.Proofs.Scope.Precedence
import ElmTypes.Proofs.Scope.Order
import ElmTypes.Proofs.Position
import ElmTypes.Proofs.Report.Apart
import ElmTypes.Proofs.Grammar.ErrorOrder
import ElmTypes.Proofs.Lexical.Nesting
import ElmTypes.Proofs.Lexical.Literals
import ElmTypes.Proofs.Scope.AliasRenaming
import ElmTypes.Proofs.Expectation.Stopping
import ElmTypes.Proofs.Expectation.Reading
import ElmTypes.Proofs.Expectation.TypeExpr
import ElmTypes.Proofs.Expectation.Declaration
import ElmTypes.Proofs.Expectation.Opening
import ElmTypes.Proofs.Expectation.Attempts
import ElmTypes.Proofs.Expectation.File
import ElmTypes.Proofs.Validation.Grouping
import ElmTypes.Proofs.Lexical.Integers
import ElmTypes.Proofs.CommandLine.Arguments
import ElmTypes.Proofs.CommandLine.Outcome
import ElmTypes.Proofs.Grammar.Recursion
import ElmTypes.Proofs.Guarded.Termination
import ElmTypes.Proofs.Hull
import ElmTypes.Proofs.Text.Offset
import ElmTypes.Proofs.Lexical.LongestMatch
import ElmTypes.Proofs.CommandLine.Session
import ElmTypes.Proofs.CommandLine.Verbosity
