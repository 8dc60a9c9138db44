import CommandTree.Accessor
import CommandTree.Call
import CommandTree.Catalog
import CommandTree.Cursor
import CommandTree.Datum.Basic
import CommandTree.Datum.Items
import CommandTree.Datum.Measured
import CommandTree.Datum.Shown
import CommandTree.Decimal.Double
import CommandTree.Decimal.Layout
import CommandTree.Decimal.Numeral
import CommandTree.Decimal.Order
import CommandTree.Decimal.Rounded
import CommandTree.Decimal.Shortest
import CommandTree.Decimal.Spoken
import CommandTree.Demo
import CommandTree.Dispatch
import CommandTree.Event
import CommandTree.Fault
import CommandTree.Forest.Basic
import CommandTree.Forest.Registration
import CommandTree.Forest.Tree
import CommandTree.Grammar.Basic
import CommandTree.Grammar.Compiled
import CommandTree.Grammar.Declaration
import CommandTree.Grammar.Reading
import CommandTree.Grammar.Registrar
import CommandTree.Grammar.Search
import CommandTree.Handler
import CommandTree.Host
import CommandTree.Log
import CommandTree.Message.Book
import CommandTree.Message.Found
import CommandTree.Message.KindNote
import CommandTree.Message.KindTable
import CommandTree.Message.Member
import CommandTree.Message.Path
import CommandTree.Message.Presentation
import CommandTree.Message.Presented
import CommandTree.Message.Template
import CommandTree.Name
import CommandTree.Name.Declaration
import CommandTree.Node.Basic
import CommandTree.Node.Declaration
import CommandTree.Parameter.Basic
import CommandTree.Parameter.Binding
import CommandTree.Parameter.Builder
import CommandTree.Parameter.Declaration
import CommandTree.Parameter.Replacement
import CommandTree.ParseFailure
import CommandTree.ParseFailure.Stated
import CommandTree.Proofs.Catalog
import CommandTree.Proofs.Cursor
import CommandTree.Proofs.Decimal.Monotone
import CommandTree.Proofs.Decimal.Nearest
import CommandTree.Proofs.Decimal.Reach
import CommandTree.Proofs.Decimal.Readable
import CommandTree.Proofs.Decimal.Written
import CommandTree.Proofs.Dispatch
import CommandTree.Proofs.Dispatch.Binding
import CommandTree.Proofs.Dispatch.Decision
import CommandTree.Proofs.Dispatch.Noninterference
import CommandTree.Proofs.Dispatch.Values
import CommandTree.Proofs.Dispatch.Verdict
import CommandTree.Proofs.Forest.Frozen
import CommandTree.Proofs.Forest.History
import CommandTree.Proofs.Forest.Lineage
import CommandTree.Proofs.Forest.Reachable
import CommandTree.Proofs.Forest.Request
import CommandTree.Proofs.Forest.Sealing
import CommandTree.Proofs.Forest.Tree
import CommandTree.Proofs.Grammar.Built
import CommandTree.Proofs.Grammar.Compiled
import CommandTree.Proofs.Grammar.Defect
import CommandTree.Proofs.Grammar.Descent
import CommandTree.Proofs.Grammar.FirstRoute
import CommandTree.Proofs.Grammar.Growth
import CommandTree.Proofs.Grammar.Lasting
import CommandTree.Proofs.Grammar.Layout
import CommandTree.Proofs.Grammar.Likeness
import CommandTree.Proofs.Grammar.Progress
import CommandTree.Proofs.Grammar.Resolution
import CommandTree.Proofs.Grammar.Route
import CommandTree.Proofs.Grammar.Runners
import CommandTree.Proofs.Grammar.Shape
import CommandTree.Proofs.Grammar.Steps
import CommandTree.Proofs.Grammar.Stop
import CommandTree.Proofs.Grammar.Walk
import CommandTree.Proofs.Host.Atomic
import CommandTree.Proofs.Host.Bystanders
import CommandTree.Proofs.Host.Execution
import CommandTree.Proofs.Host.Halfway
import CommandTree.Proofs.Host.Language
import CommandTree.Proofs.Host.Mounting
import CommandTree.Proofs.Host.Permanence
import CommandTree.Proofs.Host.Ready
import CommandTree.Proofs.Host.Refusal
import CommandTree.Proofs.Host.Registrations
import CommandTree.Proofs.Host.Reporting
import CommandTree.Proofs.Host.Session
import CommandTree.Proofs.Host.Synonyms
import CommandTree.Proofs.Host.Widening
import CommandTree.Proofs.Message.Filling
import CommandTree.Proofs.Message.Leftover
import CommandTree.Proofs.Message.Reading
import CommandTree.Proofs.Message.Rendering
import CommandTree.Proofs.Message.TextSpec
import CommandTree.Proofs.Node.Aliases
import CommandTree.Proofs.Parameter.Agreement
import CommandTree.Proofs.Parameter.Answers
import CommandTree.Proofs.Parameter.Bounds
import CommandTree.Proofs.Parameter.Branches
import CommandTree.Proofs.Parameter.Fields
import CommandTree.Proofs.Parameter.Limits
import CommandTree.Proofs.Parameter.Made
import CommandTree.Proofs.Parameter.Oversize
import CommandTree.Proofs.Parameter.Restated
import CommandTree.Proofs.Parameter.Roundtrip
import CommandTree.Proofs.Parameter.Settled
import CommandTree.Proofs.Report
import CommandTree.Proofs.Text.Words
import CommandTree.Proofs.Value
import CommandTree.Proofs.Value.Narrowing
import CommandTree.Renaming
import CommandTree.Report.Basic
import CommandTree.Report.Declaration
import CommandTree.Scalar
import CommandTree.Script
import CommandTree.Sender
import CommandTree.Text.Blank
import CommandTree.Text.CaseTable
import CommandTree.Text.Digit
import CommandTree.Text.Label
import CommandTree.Text.Lowercase
import CommandTree.Text.PrintableTable
import CommandTree.Text.Quoted
import CommandTree.Text.Ranges
import CommandTree.Text.Styled
import CommandTree.TokenClass
import CommandTree.TokenClass.Declaration
import CommandTree.Value
import CommandTree.Vocabulary
