import LineCalculator.Text.Blank
import LineCalculator.Text.DecimalDigit
import LineCalculator.Text.Graphic
import LineCalculator.Text.UpperCase
import LineCalculator.Text.Quoted
import LineCalculator.Decimal
import LineCalculator.Lexer
import LineCalculator.Names
import LineCalculator.Expr
import LineCalculator.Expr.Text
import LineCalculator.Expr.Json
import LineCalculator.Expr.Evaluate
import LineCalculator.Parser
import LineCalculator.Session
import LineCalculator.Calculator
import LineCalculator.FixedPoint
import LineCalculator.Settings.Load
import LineCalculator.CommandLine.Program
import LineCalculator.Main
import LineCalculator.Token.Text
import LineCalculator.Proofs.Reader.Rereading
import LineCalculator.Proofs.Lexical.States
import LineCalculator.Proofs.Session.Invariant
import LineCalculator.Proofs.Calculation.Outcome
import LineCalculator.Proofs.Reader.Primed
import LineCalculator.Proofs.Calculation.EntryPoints
import LineCalculator.Proofs.Reader.Spacing
import LineCalculator.Proofs.Reader.Longest
import LineCalculator.Proofs.Lexical.FirstFault
import LineCalculator.Proofs.Reader.Composition
import LineCalculator.Proofs.CommandLine.Evaluation
import LineCalculator.Proofs.CommandLine.Conversation
import LineCalculator.Proofs.Settings.Loading
import LineCalculator.Proofs.Settings.Failures
import LineCalculator.Proofs.CommandLine.Refusal
import LineCalculator.Proofs.Reader.Objection
import LineCalculator.Proofs.Session.Failure
import LineCalculator.Proofs.Reader.Brackets
import LineCalculator.Proofs.Calculation.FirstUnknown
import LineCalculator.Proofs.CommandLine.Verdict
import LineCalculator.Proofs.Reader.Unambiguous
import LineCalculator.Proofs.Settings.Numbers
import LineCalculator.Proofs.Number.Places
import LineCalculator.Proofs.Lexical.Literal
import LineCalculator.Proofs.Session.Progress
import LineCalculator.Proofs.Calculation.Records
import LineCalculator.Proofs.Reader.Frames
