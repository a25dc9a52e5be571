import DocumentCommand.Options.Reading
import DocumentCommand.Command.Executor
import DocumentCommand.Search.Build
import DocumentCommand.Logging.Setup
import DocumentCommand.Proofs.Command.Encoding
import DocumentCommand.Proofs.Decimal128.RoundTrip
import DocumentCommand.Proofs.Json.CompactText
import DocumentCommand.Proofs.Options.CollationReading
import DocumentCommand.Proofs.Options.JsonReading
import DocumentCommand.Proofs.Options.NormalForm
import DocumentCommand.Proofs.Options.ReadImage
import DocumentCommand.Proofs.Options.Settling
import DocumentCommand.Proofs.Reading.Record
import DocumentCommand.Proofs.Search.StageDecoding
import DocumentCommand.Proofs.Text.RoundTrip
import DocumentCommand.Proofs.Value.Everywhere
import DocumentCommand.Proofs.Value.JsonReading
import DocumentCommand.Proofs.Value.Lookup
import DocumentCommand.Proofs.Value.ReadImage
import DocumentCommand.Proofs.Value.ScalarReading
import DocumentCommand.Proofs.Value.StoredReading
import DocumentCommand.Proofs.Options.StoredReading
import DocumentCommand.Proofs.Command.StoredOptions
import DocumentCommand.Proofs.Reading.Agreement
import DocumentCommand.Proofs.Value.PlainReading
import DocumentCommand.Proofs.Options.FormatAgreement
import DocumentCommand.Proofs.Search.Grammar
import DocumentCommand.Proofs.Options.SetterRuns
import DocumentCommand.Proofs.Search.BuilderRuns
import DocumentCommand.Proofs.Search.InOperators
import DocumentCommand.Proofs.Options.ObjectMembers
import DocumentCommand.Proofs.Reading.Positions
import DocumentCommand.Proofs.Options.ArrayForm
import DocumentCommand.Proofs.Options.CollationFields
import DocumentCommand.Proofs.Options.StrengthNumbers
import DocumentCommand.Proofs.Logging.Settings
import DocumentCommand.Proofs.Config.Precedence
import DocumentCommand.Proofs.Config.Layers
import DocumentCommand.Proofs.Toml.Lines
import DocumentCommand.Proofs.Config.Written
import DocumentCommand.Proofs.Command.DispatchRuns
import DocumentCommand.Proofs.Text.Labelled
import DocumentCommand.Proofs.Options.DiagnosticText
import DocumentCommand.Proofs.Search.Scoring
import DocumentCommand.Proofs.Command.Slots
