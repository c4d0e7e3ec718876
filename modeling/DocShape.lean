import DocShape.Main
import DocShape.Proofs.Command.JsonOutput
import DocShape.Proofs.Command.Repeated
import DocShape.Proofs.Conversion.KeySpelling
import DocShape.Proofs.Document.Agreement
import DocShape.Proofs.Document.Codec
import DocShape.Proofs.Document.Conforming
import DocShape.Proofs.Document.Encodings
import DocShape.Proofs.Document.Failures
import DocShape.Proofs.Document.Located
import DocShape.Proofs.Document.Looser
import DocShape.Proofs.Document.Modes
import DocShape.Proofs.Document.Paths
import DocShape.Proofs.Document.Reduced
import DocShape.Proofs.Document.Reordered
import DocShape.Proofs.Document.RoundTrip
import DocShape.Proofs.Document.Saved
import DocShape.Proofs.Document.Shorthand
import DocShape.Proofs.Document.Styles
import DocShape.Proofs.Records
import DocShape.Proofs.Schema.Dumped
import DocShape.Proofs.Sessions
