import UsageBoard.Account
import UsageBoard.Charts
import UsageBoard.Json.Parser
import UsageBoard.Main
import UsageBoard.PageContent
import UsageBoard.Pages.Detail
import UsageBoard.Site
import UsageBoard.Toml.Parser
import UsageBoard.Url.Parser
import UsageBoard.World
import UsageBoard.Proofs.Usage.Order
import UsageBoard.Proofs.Usage.Tally
import UsageBoard.Proofs.Usage.Consumption
import UsageBoard.Proofs.Usage.Calls
import UsageBoard.Proofs.Usage.Window
import UsageBoard.Proofs.Usage.Labels
import UsageBoard.Proofs.Usage.Shades
import UsageBoard.Proofs.Usage.Reordering
import UsageBoard.Proofs.Usage.Hours
import UsageBoard.Proofs.Pages.DetailRun
import UsageBoard.Proofs.Pages.Visits
import UsageBoard.Proofs.Pages.Remembered
import UsageBoard.Proofs.Json.RoundTrip
import UsageBoard.Proofs.Json.Intact
import UsageBoard.Proofs.Document.Fields
import UsageBoard.Proofs.Files.ReadBack
import UsageBoard.Proofs.Store.Disk
import UsageBoard.Proofs.Store.Durability
import UsageBoard.Proofs.Store.Edits
import UsageBoard.Proofs.Store.Confirmed
import UsageBoard.Proofs.Markup.Safety
import UsageBoard.Proofs.Backend.Failure
import UsageBoard.Proofs.Program.Moves
import UsageBoard.Proofs.Backend.Sent
import UsageBoard.Proofs.Pages.Coverage
import UsageBoard.Proofs.Files.Growth
import UsageBoard.Proofs.Program.Confinement
import UsageBoard.Proofs.Files.Rewriting
import UsageBoard.Proofs.Program.History
import UsageBoard.Proofs.Pages.Published
import UsageBoard.Proofs.Usage.SessionColors
import UsageBoard.Proofs.Pages.Drawing
import UsageBoard.Proofs.Url.Paths
import UsageBoard.Proofs.Url.Padding
import UsageBoard.Proofs.Url.Joining
import UsageBoard.Proofs.Url.Extending
import UsageBoard.Proofs.Backend.Addresses
import UsageBoard.Proofs.Text.Lines
import UsageBoard.Proofs.Outcome
import UsageBoard.Proofs.Json.Numerals
import UsageBoard.Proofs.Settings.References
import UsageBoard.Proofs.Json.Records
import UsageBoard.Proofs.Settings.Marks
import UsageBoard.Proofs.Settings.Token
import UsageBoard.Proofs.Usage.Chronology
import UsageBoard.Proofs.Backend.Queries
import UsageBoard.Proofs.Usage.WholeFields
import UsageBoard.Proofs.Usage.Recurrence
import UsageBoard.Proofs.Markup.Schemes
import UsageBoard.Proofs.Pages.Embedding
import UsageBoard.Proofs.Pages.Picked
import UsageBoard.Proofs.Text.Units
import UsageBoard.Proofs.Palette
import UsageBoard.Proofs.Usage.Truncation
import UsageBoard.Proofs.Decimal.Accuracy
import UsageBoard.Proofs.Decimal.Places
import UsageBoard.Proofs.Quota
