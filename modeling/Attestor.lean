import Attestor.Diagnostic.Meter
import Attestor.Diagnostic.Record
import Attestor.Queue.Channel
import Attestor.Settings.Telemetry
import Attestor.Text.Rounded
import Attestor.Workbench
import Attestor.Proofs.Causes
import Attestor.Proofs.Transitions
import Attestor.Proofs.Submissions
import Attestor.Proofs.Moves
import Attestor.Proofs.Provenance
import Attestor.Proofs.Broadcasts
import Attestor.Proofs.Discipline
import Attestor.Proofs.Solicitation
import Attestor.Proofs.Journal
import Attestor.Proofs.Resumption
import Attestor.Proofs.Drift
import Attestor.Proofs.Reading
import Attestor.Proofs.Agreement
import Attestor.Proofs.SignBytes
import Attestor.Proofs.Consumers
import Attestor.Proofs.Additions
import Attestor.Proofs.Runs
import Attestor.Proofs.Calls
import Attestor.Proofs.Deliveries
import Attestor.Proofs.Custody
import Attestor.Proofs.Handlings
import Attestor.Proofs.Redelivery
import Attestor.Proofs.Retries
import Attestor.Proofs.Conduct
import Attestor.Proofs.Routings
import Attestor.Proofs.Lives
import Attestor.Proofs.Chronicle
import Attestor.Proofs.Shape
import Attestor.Proofs.Counters
import Attestor.Proofs.Accounting
import Attestor.Proofs.Outcomes
import Attestor.Proofs.Replays
import Attestor.Proofs.Classification
import Attestor.Proofs.Decoding
import Attestor.Proofs.RoundTrips
import Attestor.Proofs.Gate
import Attestor.Proofs.Renewal
import Attestor.Proofs.Silence
import Attestor.Proofs.Transparency
import Attestor.Proofs.Messages
import Attestor.Proofs.Marks
import Attestor.Proofs.Heights
import Attestor.Proofs.Attempts
import Attestor.Proofs.Modes
import Attestor.Proofs.Endings
import Attestor.Proofs.Containment
import Attestor.Proofs.Backoff
import Attestor.Proofs.Conservation
import Attestor.Proofs.Spellings
