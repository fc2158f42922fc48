import SupplyTrail.Demo
import SupplyTrail.Http.Wire
import SupplyTrail.Main
import SupplyTrail.Rehearsal.Step
import SupplyTrail.Proofs.Conduct
import SupplyTrail.Proofs.Conduct.Reading
import SupplyTrail.Proofs.Conduct.Writing
import SupplyTrail.Proofs.Interleaving
import SupplyTrail.Proofs.Identity
import SupplyTrail.Proofs.Interleaving.Play
import SupplyTrail.Proofs.Json.Numerals
import SupplyTrail.Proofs.Json.ReadBack
import SupplyTrail.Proofs.Json.Outline
import SupplyTrail.Proofs.Ledger.Envelope
import SupplyTrail.Proofs.Ledger.Records
import SupplyTrail.Proofs.Ledger.Growth
import SupplyTrail.Proofs.Trail.Order
import SupplyTrail.Proofs.Interleaving.Progress
import SupplyTrail.Proofs.Interleaving.Ledger
import SupplyTrail.Proofs.Completeness
import SupplyTrail.Proofs.Interleaving.Memory
import SupplyTrail.Proofs.Timestamps
import SupplyTrail.Proofs.Interleaving.Awaited
import SupplyTrail.Proofs.Session
import SupplyTrail.Proofs.Handshakes
import SupplyTrail.Proofs.Handshakes.Connected
import SupplyTrail.Proofs.Handshakes.InFlight
import SupplyTrail.Proofs.Handshakes.Sessions
import SupplyTrail.Proofs.Handshakes.Landing
import SupplyTrail.Proofs.Provenance
import SupplyTrail.Proofs.Conduct.Early
import SupplyTrail.Proofs.Conduct.Exits
import SupplyTrail.Proofs.SingleShot
import SupplyTrail.Proofs.Conduct.Once
import SupplyTrail.Proofs.Gating
import SupplyTrail.Proofs.Conduct.Evidence
import SupplyTrail.Proofs.Ledger.RoundTrip
import SupplyTrail.Proofs.Conduct.Binding
import SupplyTrail.Proofs.Interleaving.Course
import SupplyTrail.Proofs.NetworkBinding
import SupplyTrail.Proofs.Ledger.Arguments
import SupplyTrail.Proofs.Signing
import SupplyTrail.Proofs.Node.Calls
import SupplyTrail.Proofs.Node.Line
import SupplyTrail.Proofs.Node.Submitting
import SupplyTrail.Proofs.Submission
import SupplyTrail.Proofs.Trail.Paging
import SupplyTrail.Proofs.Trail.Parsing
import SupplyTrail.Proofs.FaultMapping
import SupplyTrail.Proofs.Concurrency
import SupplyTrail.Proofs.Ledger.Codes
import SupplyTrail.Proofs.Settings
import SupplyTrail.Proofs.Registration
import SupplyTrail.Proofs.Consent
import SupplyTrail.Proofs.Calendar.Moments
import SupplyTrail.Proofs.Text.Abbreviation
