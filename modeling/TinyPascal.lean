import TinyPascal.CommandLine.Arguments
import TinyPascal.CommandLine.Files
import TinyPascal.CommandLine.Log
import TinyPascal.CommandLine.Report
import TinyPascal.Console.Basic
import TinyPascal.Console.Rehearsed
import TinyPascal.Console.Scripted
import TinyPascal.Console.Standard
import TinyPascal.Diagnostic
import TinyPascal.Execution.Evaluation
import TinyPascal.Execution.Fault
import TinyPascal.Execution.Interrupt
import TinyPascal.Execution.Policy
import TinyPascal.Execution.Run
import TinyPascal.Execution.Session
import TinyPascal.Execution.Statement
import TinyPascal.Execution.Store
import TinyPascal.Execution.Value
import TinyPascal.Integer
import TinyPascal.Interpreter
import TinyPascal.Main
import TinyPascal.Outline
import TinyPascal.Position
import TinyPascal.Syntax.Expression
import TinyPascal.Syntax.Operator
import TinyPascal.Syntax.Outline
import TinyPascal.Syntax.Program
import TinyPascal.Syntax.Rule
import TinyPascal.Syntax.Statement
import TinyPascal.Syntax.Tree
import TinyPascal.Text.Blank
import TinyPascal.Text.CodePoints
import TinyPascal.Text.Decimal
import TinyPascal.Text.Escaped
import TinyPascal.Text.Extender
import TinyPascal.Text.Letter
import TinyPascal.Text.Numeric
import TinyPascal.Text.Printable
import TinyPascal.Token.Basic
import TinyPascal.Token.Kind
import TinyPascal.Token.Lexer
import TinyPascal.Typing.Analysis
import TinyPascal.Typing.Expression
import TinyPascal.Typing.Statement
import TinyPascal.Typing.Symbols
import TinyPascal.Typing.Violation
import TinyPascal.Proofs.Syntax.Grammar
import TinyPascal.Proofs.Syntax.Rule
import TinyPascal.Proofs.Syntax.Soundness
import TinyPascal.Proofs.Syntax.Completeness
import TinyPascal.Proofs.Syntax.WellFormed
import TinyPascal.Proofs.Token.Lexing
import TinyPascal.Proofs.Syntax.RoundTrip
import TinyPascal.Proofs.Execution.Machine
import TinyPascal.Proofs.Typing.Evaluation
import TinyPascal.Proofs.Typing.Soundness
import TinyPascal.Proofs.Execution.Termination
import TinyPascal.Proofs.Token.Munch
import TinyPascal.Proofs.Token.Scanning
import TinyPascal.Proofs.Token.Order
import TinyPascal.Proofs.Syntax.Anchor
import TinyPascal.Proofs.Typing.Judgement
import TinyPascal.Proofs.Typing.TypeMap
import TinyPascal.Proofs.Execution.Interruption
import TinyPascal.Proofs.Execution.Guarding
import TinyPascal.Proofs.Execution.Frame
import TinyPascal.Proofs.Syntax.Recursion
import TinyPascal.Proofs.Syntax.Lookahead
import TinyPascal.Proofs.Syntax.ViablePrefix
import TinyPascal.Proofs.Typing.SourceOrder
import TinyPascal.Proofs.Console.Lines
import TinyPascal.Proofs.Console.Simulation
import TinyPascal.Proofs.CommandLine.Flags
import TinyPascal.Proofs.Syntax.Parts
import TinyPascal.Proofs.Execution.Faults
import TinyPascal.Proofs.Typing.Charges
import TinyPascal.Proofs.Pinpoint
import TinyPascal.Proofs.Token.Layout
import TinyPascal.Proofs.Syntax.Erasure
import TinyPascal.Proofs.Typing.Erasure
import TinyPascal.Proofs.Execution.Erasure
import TinyPascal.Proofs.Layout
import TinyPascal.Proofs.Console.Unread
import TinyPascal.Proofs.Integer
import TinyPascal.Proofs.Execution.Exact
import TinyPascal.Proofs.Execution.Schedule
import TinyPascal.Proofs.Typing.Independence
import TinyPascal.Proofs.Text.Escaped
import TinyPascal.Proofs.Outline
import TinyPascal.Proofs.Syntax.Outline
import TinyPascal.Proofs.Syntax.Locality
import TinyPascal.Proofs.Execution.Reading
import TinyPascal.Proofs.Typing.Declarations
import TinyPascal.Proofs.Typing.Relevance
import TinyPascal.Proofs.Execution.Relevance
import TinyPascal.Proofs.Token.Quotes
import TinyPascal.Proofs.Token.LineIndex
import TinyPascal.Proofs.Text.Decimal
import TinyPascal.Proofs.Execution.Numerals
import TinyPascal.Proofs.Division
