import TextVectors.Address
import TextVectors.Digest
import TextVectors.Encoder
import TextVectors.Failure
import TextVectors.Files
import TextVectors.Hub.Basic
import TextVectors.Hub.Fetch
import TextVectors.Hub.Wire
import TextVectors.Journal
import TextVectors.Journal.Filter
import TextVectors.Journal.Folder
import TextVectors.Json.Decode
import TextVectors.Json.Defect
import TextVectors.Json.Lexeme
import TextVectors.Json.Text
import TextVectors.Json.Tree
import TextVectors.Main
import TextVectors.Mode
import TextVectors.Model.Artifacts
import TextVectors.Model.Pooling
import TextVectors.Model.Source
import TextVectors.Number.Binary
import TextVectors.Number.Decimal
import TextVectors.Number.Hexadecimal
import TextVectors.Number.Natural
import TextVectors.Number.Single
import TextVectors.Number.Words
import TextVectors.Path
import TextVectors.Payload
import TextVectors.Sample.Provider
import TextVectors.Sample.Sentences
import TextVectors.Sample.Store
import TextVectors.SentenceEncoder
import TextVectors.Service.Basic
import TextVectors.Service.MediaType
import TextVectors.Service.Request
import TextVectors.Service.State
import TextVectors.Settings
import TextVectors.Settings.Pins
import TextVectors.Span
import TextVectors.Startup
import TextVectors.Text.Blank
import TextVectors.Text.CodeSet
import TextVectors.Text.Folding
import TextVectors.Text.Punycode
import TextVectors.Text.Quoted
import TextVectors.Text.Split
import TextVectors.Tokens.Added
import TextVectors.Tokens.Batch
import TextVectors.Tokens.Component
import TextVectors.Tokens.Normalizer
import TextVectors.Tokens.Reader
import TextVectors.Tokens.Splitter
import TextVectors.Tokens.Tokenizer
import TextVectors.Tokens.Vocabulary
import TextVectors.Transformer.Config
import TextVectors.Transformer.Loading
import TextVectors.Transformer.Network
import TextVectors.Transformer.Tensor
import TextVectors.UnitVector
import TextVectors.Url.Basic
import TextVectors.Url.Encoded
import TextVectors.Url.Host
import TextVectors.Weights.Archive
import TextVectors.Weights.Basic
import TextVectors.Weights.Headed
import TextVectors.Weights.StackProgram
import TextVectors.Proofs.Encoder.Cut
import TextVectors.Proofs.Encoder.Outcome
import TextVectors.Proofs.Encoder.Batches
import TextVectors.Proofs.Encoder.TextByText
import TextVectors.Proofs.SentenceEncoder.Filling
import TextVectors.Proofs.SentenceEncoder.Neighbours
import TextVectors.Proofs.Json.Grammar
import TextVectors.Proofs.Json.Words
import TextVectors.Proofs.Json.Strings
import TextVectors.Proofs.Json.Skipping
import TextVectors.Proofs.Json.Reading
import TextVectors.Proofs.Json.Faults
import TextVectors.Proofs.Json.Fronts
import TextVectors.Proofs.Payload.Requests
import TextVectors.Proofs.Service.Course
import TextVectors.Proofs.Service.Time
import TextVectors.Proofs.Service.Permits
import TextVectors.Proofs.Service.Answers
import TextVectors.Proofs.Service.Sightings
import TextVectors.Proofs.Service.Limit
import TextVectors.Proofs.Service.Delay
import TextVectors.Proofs.Service.History
import TextVectors.Proofs.Service.Refusals
import TextVectors.Proofs.Service.Malformed
import TextVectors.Proofs.Files.Paths
import TextVectors.Proofs.Files.Halts
import TextVectors.Proofs.Files.Tree
import TextVectors.Proofs.Files.Directories
import TextVectors.Proofs.Files.Frame
import TextVectors.Proofs.Model.Resolution
import TextVectors.Proofs.Hub.Exchanges
import TextVectors.Proofs.Hub.Writing
import TextVectors.Proofs.Hub.Steps
import TextVectors.Proofs.Hub.Halts
import TextVectors.Proofs.Hub.Pinned
import TextVectors.Proofs.Hub.Footprint
import TextVectors.Proofs.Hub.SideBySide
import TextVectors.Proofs.Hub.Confined
import TextVectors.Proofs.Startup.Offline
import TextVectors.Proofs.Startup.Leftovers
import TextVectors.Proofs.Transformer.Loading
import TextVectors.Proofs.Settings.Numbers
import TextVectors.Proofs.Startup.Ready
import TextVectors.Proofs.Startup.Ways
import TextVectors.Proofs.Startup.FailFast
import TextVectors.Proofs.Service.Dimension
import TextVectors.Proofs.Service.Bounds
import TextVectors.Proofs.Json.Numbers
import TextVectors.Proofs.Json.Writing
import TextVectors.Proofs.Payload.RoundTrip
import TextVectors.Proofs.Encoder.FirstFailure
import TextVectors.Proofs.Encoder.Positions
import TextVectors.Proofs.Text.Trimming
import TextVectors.Proofs.Settings.Reading
import TextVectors.Proofs.Settings.Numerals
import TextVectors.Proofs.Settings.Pins
import TextVectors.Proofs.Settings.Faults
import TextVectors.Proofs.Settings.Effects
import TextVectors.Proofs.Hub.Storing
import TextVectors.Proofs.Hub.Decided
import TextVectors.Proofs.Settings.PinLists
import TextVectors.Proofs.Tokens.Limit
import TextVectors.Proofs.Weights.Headed
import TextVectors.Proofs.Transformer.Layout
import TextVectors.Proofs.SentenceEncoder.Averages
import TextVectors.Proofs.Service.Entries
import TextVectors.Proofs.Transformer.Pooling
import TextVectors.Proofs.Transformer.Separation
import TextVectors.Proofs.Number.Values
import TextVectors.Proofs.Number.Rounding
import TextVectors.Proofs.Number.Operations
import TextVectors.Proofs.Number.Roots
import TextVectors.Proofs.Number.Singles
import TextVectors.Proofs.UnitVector.Direction
import TextVectors.Proofs.UnitVector.Bounds
