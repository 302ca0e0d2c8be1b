import Roster.Main
import Roster.Person.Call
import Roster.Proofs.Bytes
import Roster.Proofs.Double
import Roster.Proofs.Json.Entries
import Roster.Proofs.Json.Strings
import Roster.Proofs.Json.Numbers
import Roster.Proofs.Json.Members
import Roster.Proofs.Json.RoundTrip
import Roster.Proofs.Json.Compact
import Roster.Proofs.Json.Grammar
import Roster.Proofs.Json.Written
import Roster.Proofs.Json.Sorted
import Roster.Proofs.Json.Extent
import Roster.Proofs.Json.Locality
import Roster.Proofs.Json.Elements
import Roster.Proofs.Json.Skip
import Roster.Proofs.Json.Found
import Roster.Proofs.Json.Verdict
import Roster.Proofs.Json.Layout
import Roster.Proofs.Person.Sequence
import Roster.Proofs.Person.Batch
import Roster.Proofs.Person.History
import Roster.Proofs.Person.Reader
import Roster.Proofs.Person.Grammar
import Roster.Proofs.Sink
import Roster.Proofs.Store
import Roster.Proofs.Store.Walk
import Roster.Proofs.Store.Place
import Roster.Proofs.Disk
import Roster.Proofs.Dataset.Report
import Roster.Proofs.Dataset.Document
import Roster.Proofs.Dataset.Verification
import Roster.Proofs.Dataset.Writer
import Roster.Proofs.Dataset.Populate
import Roster.Proofs.Dataset.Staging
import Roster.Proofs.Dataset.Agreement
import Roster.Proofs.Dataset.Truncation
import Roster.Proofs.Dataset.Accounting
import Roster.Proofs.Dataset.Rearrangement
import Roster.Proofs.Dataset.References
import Roster.Proofs.Dataset.Templates
import Roster.Proofs.Dataset.Elements
import Roster.Proofs.Person.Views
import Roster.Proofs.Dataset.ReadBack
import Roster.Proofs.Dataset.Layouts
import Roster.Proofs.Dataset.Differences
import Roster.Proofs.Dataset.InPlace
import Roster.Proofs.Path
import Roster.Proofs.Store.Beside
import Roster.Proofs.Dataset.Effect
import Roster.Proofs.Dataset.Refinement
import Roster.Proofs.Preset.Selection
import Roster.Proofs.Command.Presets
import Roster.Proofs.Command.Refusal
import Roster.Proofs.Command.Table
