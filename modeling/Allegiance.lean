import Allegiance.Binary64.Arithmetic
import Allegiance.Binary64.Basic
import Allegiance.Binary64.Decimal
import Allegiance.Binary64.Rounding
import Allegiance.Binary64.Shortest
import Allegiance.Classification.Tally
import Allegiance.Classification.Tuning
import Allegiance.Classification.Walk
import Allegiance.Command.Invocation
import Allegiance.Command.Report
import Allegiance.Command.Run
import Allegiance.Command.Words
import Allegiance.Config.Basic
import Allegiance.Config.Files
import Allegiance.Config.Reading
import Allegiance.Document.Flaw
import Allegiance.Document.Misfit
import Allegiance.Document.Names
import Allegiance.Document.Node
import Allegiance.Document.Reading
import Allegiance.Faction
import Allegiance.Files.Path
import Allegiance.Host.Basic
import Allegiance.Host.FileSystem
import Allegiance.Http.Endpoint
import Allegiance.Http.MediaType
import Allegiance.Http.Message
import Allegiance.Http.Percent
import Allegiance.Http.Server
import Allegiance.Instant.Basic
import Allegiance.Instant.Calendar
import Allegiance.Instant.Reader
import Allegiance.Journal
import Allegiance.Json.Document
import Allegiance.Json.Number
import Allegiance.Json.Text
import Allegiance.Json.Token
import Allegiance.Json.Value
import Allegiance.Main
import Allegiance.Match.Classified
import Allegiance.Match.Classifier
import Allegiance.Match.Reading
import Allegiance.Match.Stats
import Allegiance.Match.Summary
import Allegiance.Match.Writing
import Allegiance.Storage.Files
import Allegiance.Storage.Format
import Allegiance.Storage.Lines
import Allegiance.Taxonomy.Basic
import Allegiance.Taxonomy.Builtin
import Allegiance.Taxonomy.Files
import Allegiance.Taxonomy.Group
import Allegiance.Taxonomy.Reading
import Allegiance.Text.Blank
import Allegiance.Text.Hex
import Allegiance.Text.Quoted
import Allegiance.Text.Unprintable
import Allegiance.Text.Utf8
import Allegiance.Toml.Document
import Allegiance.Toml.Scalar
import Allegiance.Toml.Table
import Allegiance.Toml.Text
import Allegiance.Usage.Basic
import Allegiance.Usage.Ranking
import Allegiance.Usage.Reading
import Allegiance.Proofs.Rounding
import Allegiance.Proofs.Threshold
import Allegiance.Proofs.EarlyExit
import Allegiance.Proofs.Looking
import Allegiance.Proofs.Reload
import Allegiance.Proofs.EscapedText
import Allegiance.Proofs.Tokens
import Allegiance.Proofs.Tree
import Allegiance.Proofs.WrittenLines
import Allegiance.Proofs.RereadMatch
import Allegiance.Proofs.FileReplacement
import Allegiance.Proofs.RoundTrip
import Allegiance.Proofs.Moments
import Allegiance.Proofs.RereadResult
import Allegiance.Proofs.Decoding
import Allegiance.Proofs.FourInFive
import Allegiance.Proofs.Acceptance
import Allegiance.Proofs.TableContents
import Allegiance.Proofs.OtherSide
import Allegiance.Proofs.Ranking
import Allegiance.Proofs.MoreKills
import Allegiance.Proofs.Dilution
import Allegiance.Proofs.LineByLine
import Allegiance.Proofs.PlayerGrammar
import Allegiance.Proofs.ClassifyingFiles
import Allegiance.Proofs.PostedMatch
import Allegiance.Proofs.Snapshots
import Allegiance.Proofs.MatchSummary
import Allegiance.Proofs.ZeroKills
import Allegiance.Proofs.EnteredUsage
import Allegiance.Proofs.LastInstalled
import Allegiance.Proofs.Stability
import Allegiance.Proofs.SharedOrigin
import Allegiance.Proofs.PercentCoding
import Allegiance.Proofs.WeaponAddress
import Allegiance.Proofs.RoundingError
import Allegiance.Proofs.OneSided
import Allegiance.Proofs.WholeSums
