import Sprig.CommandLine.Command
import Sprig.CommandLine.FileTree
import Sprig.CommandLine.Options
import Sprig.CommandLine.Path
import Sprig.Fault
import Sprig.Machine.Evaluation
import Sprig.Machine.Trace
import Sprig.Machine.World
import Sprig.Main
import Sprig.Number.Arithmetic
import Sprig.Number.Basic
import Sprig.Number.Decimal
import Sprig.Number.Format
import Sprig.Number.Shortest
import Sprig.Operator
import Sprig.Proofs.Grammar.Climbing
import Sprig.Proofs.Grammar.Phrase
import Sprig.Proofs.Grammar.ReaderLaws
import Sprig.Report
import Sprig.Scope.Basic
import Sprig.Scope.Forest
import Sprig.Session
import Sprig.Shell
import Sprig.Text.Blank
import Sprig.Text.Numeral
import Sprig.Text.Printable
import Sprig.Text.Quoted
import Sprig.Token.Basic
import Sprig.Token.Lexed
import Sprig.Token.Segment
import Sprig.Token.Stream
import Sprig.Tree.Basic
import Sprig.Tree.Bracketed
import Sprig.Tree.ExprReader
import Sprig.Tree.Precedence
import Sprig.Tree.Reader
import Sprig.Tree.StmtReader
import Sprig.Tree.SyntaxError
import Sprig.Tree.Written
import Sprig.Value
import Sprig.Proofs.Grammar.ExprReading
import Sprig.Proofs.Grammar.ExprCompleteness
import Sprig.Proofs.Grammar.StmtReading
import Sprig.Proofs.Grammar.Unambiguous
import Sprig.Proofs.Grammar.Programs
import Sprig.Proofs.Lexing.Division
import Sprig.Proofs.Number.Numeral
import Sprig.Proofs.Tree.Stripped
import Sprig.Proofs.Tree.Rereading
import Sprig.Proofs.Number.Rounding
import Sprig.Proofs.Number.TwiceRounded
import Sprig.Proofs.Number.ShortestDecimal
import Sprig.Proofs.Number.ResidueSearch
import Sprig.Proofs.Number.NearMidpoints
import Sprig.Proofs.Number.ReadBack
import Sprig.Proofs.Machine.Likeness
import Sprig.Proofs.Machine.Simulation
import Sprig.Proofs.Machine.Layout
import Sprig.Proofs.Value.Data
import Sprig.Proofs.Scope.Lookup
import Sprig.Proofs.Tree.Parts
import Sprig.Proofs.Machine.Watched
import Sprig.Proofs.Machine.Discipline
import Sprig.Proofs.Machine.Names
import Sprig.Proofs.Grammar.Literals
import Sprig.Proofs.Machine.Reach
import Sprig.Proofs.Machine.Growth
import Sprig.Proofs.Tree.Sites
import Sprig.Proofs.Machine.Survey
import Sprig.Proofs.Machine.Charted
import Sprig.Proofs.Machine.Nesting
import Sprig.Proofs.Machine.WellScoped
import Sprig.Proofs.Machine.Renaming
import Sprig.Proofs.Grammar.EarliestError
import Sprig.Proofs.Grammar.Limits
import Sprig.Proofs.Machine.Checked
import Sprig.Proofs.Machine.Operators
import Sprig.Proofs.Lexing.Joined
import Sprig.Proofs.Machine.Continued
import Sprig.Proofs.Machine.Joined
import Sprig.Proofs.Lexing.Tiling
import Sprig.Proofs.Lexing.Places
import Sprig.Proofs.Machine.ErrorPlaces
import Sprig.Proofs.Machine.Verbosity
import Sprig.Proofs.Scope.StoreLaws
import Sprig.Proofs.Lexing.Rewritten
import Sprig.Proofs.Grammar.Cursor
import Sprig.Proofs.Grammar.CursorLaws
import Sprig.Proofs.Grammar.CursorReading
import Sprig.Proofs.Number.Nearest
import Sprig.Proofs.Number.PrintedDigits
import Sprig.Proofs.Number.Faithful
import Sprig.Proofs.Tree.Outline
import Sprig.Proofs.Tree.Recovered
import Sprig.Proofs.Machine.Shell
import Sprig.Proofs.Value.Coherence
import Sprig.Proofs.Machine.Deepening
