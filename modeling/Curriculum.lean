import Curriculum.Book
import Curriculum.Command.Arguments
import Curriculum.Command.Run
import Curriculum.CourseId.Basic
import Curriculum.CourseId.Entry
import Curriculum.Csv
import Curriculum.Eligibility
import Curriculum.Graph.Audit
import Curriculum.Graph.Basic
import Curriculum.Graph.Compile
import Curriculum.Graph.Row
import Curriculum.Json.Basic
import Curriculum.Json.Literal
import Curriculum.Json.Membership
import Curriculum.Json.Printer
import Curriculum.Json.Reader
import Curriculum.Main
import Curriculum.Number.Double
import Curriculum.Number.Numeral
import Curriculum.Number.Shortest
import Curriculum.OrderedMap
import Curriculum.Plan.ChainDepth
import Curriculum.Plan.Required
import Curriculum.Plan.Unlocks
import Curriculum.Plan.Unseen
import Curriculum.Recent
import Curriculum.Requirement.Basic
import Curriculum.Requirement.Clauses
import Curriculum.Requirement.Draft
import Curriculum.Requirement.Grouping
import Curriculum.Requirement.Parser
import Curriculum.Requirement.Printer
import Curriculum.Requirement.Reading
import Curriculum.Requirement.Shape
import Curriculum.Requirement.Token
import Curriculum.Service.Body
import Curriculum.Service.Endpoint
import Curriculum.Service.Refusal
import Curriculum.Service.Request
import Curriculum.Service.Server
import Curriculum.Service.Settings
import Curriculum.SortedSet
import Curriculum.Standing
import Curriculum.Text.Blank
import Curriculum.Text.Digit
import Curriculum.Text.HiddenTable
import Curriculum.Text.Quoted
import Curriculum.Text.Upper
import Curriculum.Text.UpperTable
import Curriculum.Proofs.Except
import Curriculum.Proofs.Grammar
import Curriculum.Proofs.Lexing
import Curriculum.Proofs.Reader
import Curriculum.Proofs.Limits
import Curriculum.Proofs.Sentences
import Curriculum.Proofs.Canonical
import Curriculum.Proofs.Alternatives
import Curriculum.Proofs.Rewriting
import Curriculum.Proofs.Intake
import Curriculum.Proofs.Compiled
import Curriculum.Proofs.Interchange
import Curriculum.Proofs.Remembering
import Curriculum.Proofs.RoundTrip
import Curriculum.Proofs.Capitals
import Curriculum.Proofs.Readable
import Curriculum.Proofs.Closure
import Curriculum.Proofs.Consistency
import Curriculum.Proofs.Advancing
import Curriculum.Proofs.Notices
import Curriculum.Proofs.Bookkeeping
import Curriculum.Proofs.Memoryless
import Curriculum.Proofs.Offences
import Curriculum.Proofs.Entering
import Curriculum.Proofs.Placing
import Curriculum.Proofs.Spellings
import Curriculum.Proofs.Answering
import Curriculum.Proofs.Rounding
import Curriculum.Proofs.Shortest
import Curriculum.Proofs.Numerals
import Curriculum.Proofs.BlankRows
import Curriculum.Proofs.Groups
import Curriculum.Proofs.Caps
import Curriculum.Proofs.Measuring
import Curriculum.Proofs.LongestChains
import Curriculum.Proofs.Admission
import Curriculum.Proofs.Drawing
import Curriculum.Proofs.Reordering
import Curriculum.Proofs.Passing
import Curriculum.Proofs.Shapes
import Curriculum.Proofs.Parentheses
import Curriculum.Proofs.Progress
import Curriculum.Proofs.Skipping
import Curriculum.Proofs.Evaluating
import Curriculum.Proofs.Referring
import Curriculum.Proofs.Retaining
import Curriculum.Proofs.Naming
import Curriculum.Proofs.Restyling
import Curriculum.Proofs.Asking
import Curriculum.Proofs.Tiling
