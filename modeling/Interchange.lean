import Interchange.Script.Session.Run
import Interchange.Proofs.DateText.Century
import Interchange.Proofs.DateText.Comments
import Interchange.Proofs.DateText.Impossible
import Interchange.Proofs.DateText.Pieces
import Interchange.Proofs.DateText.Safety
import Interchange.Proofs.DateText.Words
import Interchange.Proofs.DateText.Zones
import Interchange.Proofs.Instant.Buckets
import Interchange.Proofs.Instant.Chronology
import Interchange.Proofs.Value.Settling
import Interchange.Proofs.Value.Shape
import Interchange.Proofs.Script.Crossing
import Interchange.Proofs.Script.History
import Interchange.Proofs.Script.Overwriting
import Interchange.Proofs.Script.RoundTrip
