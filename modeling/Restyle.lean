import Restyle.Action
import Restyle.CommandLine
import Restyle.CommandLine.Directory
import Restyle.Document
import Restyle.Document.Axis
import Restyle.Document.OfMarkup
import Restyle.Double
import Restyle.Double.Decimal
import Restyle.Environment
import Restyle.Eval
import Restyle.Expr
import Restyle.Expr.Outline
import Restyle.Expr.Parser
import Restyle.Expr.Written
import Restyle.Failure
import Restyle.Function
import Restyle.Instruction
import Restyle.Json
import Restyle.Main
import Restyle.Markup.Element
import Restyle.Markup.Prolog
import Restyle.Markup.Reading
import Restyle.Markup.Source
import Restyle.Markup.Token
import Restyle.Name
import Restyle.Parameters
import Restyle.Pattern
import Restyle.Pattern.Matching
import Restyle.Proofs.Document.Ascending
import Restyle.Proofs.Document.Axes
import Restyle.Proofs.Document.Below
import Restyle.Proofs.Document.Comparison
import Restyle.Proofs.Document.Height
import Restyle.Proofs.Document.Order
import Restyle.Proofs.Document.Texts
import Restyle.Proofs.Double.Halves
import Restyle.Proofs.Double.Order
import Restyle.Proofs.Double.ReadBack
import Restyle.Proofs.Double.Rounding
import Restyle.Proofs.Environment
import Restyle.Proofs.Expr.Ascending
import Restyle.Proofs.Expr.Calls
import Restyle.Proofs.Expr.Computed
import Restyle.Proofs.Expr.Descendants
import Restyle.Proofs.Expr.Levels
import Restyle.Proofs.Expr.Lexemes
import Restyle.Proofs.Expr.Lexing
import Restyle.Proofs.Expr.Quotes
import Restyle.Proofs.Expr.Reading
import Restyle.Proofs.Expr.Respacing
import Restyle.Proofs.Expr.RoundTrip
import Restyle.Proofs.Expr.Spacing
import Restyle.Proofs.Expr.Steps
import Restyle.Proofs.Expr.Variables
import Restyle.Proofs.Markup.AttributeNames
import Restyle.Proofs.Markup.Scope
import Restyle.Proofs.Pattern.Agreement
import Restyle.Proofs.Pattern.EveryNode
import Restyle.Proofs.Pattern.Focus
import Restyle.Proofs.Pattern.Grammar
import Restyle.Proofs.Result.Collecting
import Restyle.Proofs.Result.Comments
import Restyle.Proofs.Result.Decoding
import Restyle.Proofs.Result.Encoding
import Restyle.Proofs.Result.Nesting
import Restyle.Proofs.Result.Rereading
import Restyle.Proofs.Rules
import Restyle.Proofs.Rules.Choice
import Restyle.Proofs.Run.Bindings
import Restyle.Proofs.Run.BuiltIn
import Restyle.Proofs.Run.Calls
import Restyle.Proofs.Run.Copying
import Restyle.Proofs.Run.Ending
import Restyle.Proofs.Run.Expressions
import Restyle.Proofs.Run.Frames
import Restyle.Proofs.Run.Hereditary
import Restyle.Proofs.Run.Isolation
import Restyle.Proofs.Run.Limits
import Restyle.Proofs.Run.Literals
import Restyle.Proofs.Run.Looping
import Restyle.Proofs.Run.Outside
import Restyle.Proofs.Run.Passing
import Restyle.Proofs.Run.Restoration
import Restyle.Proofs.Run.Shown
import Restyle.Proofs.Run.Sorting
import Restyle.Proofs.Run.Termination
import Restyle.Proofs.Run.Unfolding
import Restyle.Proofs.Stylesheet.Constructs
import Restyle.Proofs.Stylesheet.Filling
import Restyle.Proofs.Stylesheet.Ignored
import Restyle.Proofs.Stylesheet.Layout
import Restyle.Proofs.Stylesheet.Places
import Restyle.Proofs.Stylesheet.Prefixes
import Restyle.Proofs.Stylesheet.Readings
import Restyle.Proofs.Stylesheet.Soundness
import Restyle.Proofs.Stylesheet.Steps
import Restyle.Proofs.Stylesheet.Texts
import Restyle.Proofs.Stylesheet.Walk
import Restyle.Proofs.Stylesheet.WellFormed
import Restyle.Proofs.Success
import Restyle.Proofs.TextTemplate
import Restyle.Proofs.Value.Comparison
import Restyle.Proofs.Value.Numerals
import Restyle.Proofs.Value.Rounding
import Restyle.Proofs.Value.Spaces
import Restyle.Result
import Restyle.Result.Written
import Restyle.Rules
import Restyle.Run
import Restyle.Run.Body
import Restyle.Run.Copy
import Restyle.Run.Focus
import Restyle.Run.Sorting
import Restyle.Stylesheet
import Restyle.Stylesheet.Assembly
import Restyle.Stylesheet.Event
import Restyle.Text.Blank
import Restyle.Text.Casing
import Restyle.Text.Letter
import Restyle.Text.Printable
import Restyle.Text.Quoted
import Restyle.Text.Ranges
import Restyle.Text.Search
import Restyle.Text.Utf8
import Restyle.TextTemplate
import Restyle.Transform
import Restyle.Value
import Restyle.Value.Operator
