import Gamebook.Arguments
import Gamebook.Calendar
import Gamebook.Condition
import Gamebook.Decimal.Layout
import Gamebook.Decimal.Numeral
import Gamebook.Decimal.Shortest
import Gamebook.Dictionary
import Gamebook.Disk
import Gamebook.Effects
import Gamebook.Fault
import Gamebook.Generator
import Gamebook.Instant
import Gamebook.Json.Basic
import Gamebook.Json.Fields
import Gamebook.Json.Printer
import Gamebook.Json.Reader
import Gamebook.Json.Token
import Gamebook.Lint
import Gamebook.Main
import Gamebook.Markup
import Gamebook.Path
import Gamebook.Playthrough
import Gamebook.Program
import Gamebook.Progress
import Gamebook.Proofs.Calls
import Gamebook.Proofs.Chance
import Gamebook.Proofs.Choosing
import Gamebook.Proofs.Chronicle
import Gamebook.Proofs.Decimal.Parts
import Gamebook.Proofs.Decimal.Product
import Gamebook.Proofs.Decimal.Reading
import Gamebook.Proofs.Decimal.Rounding
import Gamebook.Proofs.Decimal.Saved
import Gamebook.Proofs.Decimal.Scaling
import Gamebook.Proofs.Decimal.Worth
import Gamebook.Proofs.Decimal.Written
import Gamebook.Proofs.Deeds
import Gamebook.Proofs.Effects
import Gamebook.Proofs.Instant
import Gamebook.Proofs.Json.Quoted
import Gamebook.Proofs.Json.Rereading
import Gamebook.Proofs.Lint
import Gamebook.Proofs.Loading
import Gamebook.Proofs.Markup.Cut
import Gamebook.Proofs.Markup.Directive
import Gamebook.Proofs.Markup.Expanding
import Gamebook.Proofs.Markup.Parse
import Gamebook.Proofs.Markup.Rendering
import Gamebook.Proofs.Markup.Scan
import Gamebook.Proofs.Replay
import Gamebook.Proofs.Resuming
import Gamebook.Proofs.RoundTrip
import Gamebook.Proofs.Save
import Gamebook.Save
import Gamebook.Session
import Gamebook.Settings
import Gamebook.Story
import Gamebook.Story.Reading
import Gamebook.Surroundings
import Gamebook.Table
import Gamebook.Text.Blank
import Gamebook.Text.Ligature
import Gamebook.Text.Mark
import Gamebook.Text.Parts
import Gamebook.Text.Pictogram
import Gamebook.Text.Ranges
import Gamebook.Text.Wide
import Gamebook.Text.Width
import Gamebook.Usage
import Gamebook.Value
import Gamebook.Proofs.History
import Gamebook.Proofs.Continuing
import Gamebook.Proofs.Events
import Gamebook.Proofs.Offering
import Gamebook.Proofs.Ledger
import Gamebook.Proofs.Presentation
import Gamebook.Proofs.Resetting
import Gamebook.Proofs.CleanReport
import Gamebook.Proofs.Dictionary
import Gamebook.Proofs.Json.Settling
import Gamebook.Proofs.Json.Kept
import Gamebook.Proofs.Packages
import Gamebook.Proofs.Json.Gap
import Gamebook.Proofs.Conditions
import Gamebook.Proofs.Malformed
import Gamebook.Proofs.Disk
import Gamebook.Proofs.Sessions
import Gamebook.Proofs.Mirroring
import Gamebook.Proofs.Paths
import Gamebook.Proofs.Provenance
import Gamebook.Proofs.Report
import Gamebook.Proofs.Numbering
import Gamebook.Proofs.Sorting
import Gamebook.Proofs.Variables
import Gamebook.Proofs.Applying
import Gamebook.Proofs.Repeating
import Gamebook.Proofs.Paying
import Gamebook.Proofs.Alarms
import Gamebook.Proofs.Comparing
import Gamebook.Proofs.Frame
import Gamebook.Proofs.Decimal.Order
import Gamebook.Proofs.Conjunction
import Gamebook.Proofs.Markup.Composing
import Gamebook.Proofs.Fields
import Gamebook.Proofs.Founding
import Gamebook.Proofs.Belongings
import Gamebook.Proofs.Markup.Offsets
import Gamebook.Proofs.Markup.Progressing
import Gamebook.Proofs.Surroundings
