import LinkLayer.Main
import LinkLayer.Queue
import LinkLayer.Proofs.RoundTrip
import LinkLayer.Proofs.Delivery
import LinkLayer.Proofs.Eviction
import LinkLayer.Proofs.SendCounts
import LinkLayer.Proofs.ReceiveCounts
import LinkLayer.Proofs.FailedWrites
import LinkLayer.Proofs.Lifetimes
import LinkLayer.Proofs.Passes
import LinkLayer.Proofs.Emission
import LinkLayer.Proofs.EarlyAnswer
import LinkLayer.Proofs.Handshake
import LinkLayer.Proofs.EchoRun
import LinkLayer.Proofs.Fates
import LinkLayer.Proofs.Awaiting
import LinkLayer.Proofs.Learning
import LinkLayer.Proofs.Bounds
import LinkLayer.Proofs.Observation
import LinkLayer.Proofs.Logging
import LinkLayer.Proofs.Arrivals
import LinkLayer.Proofs.Acceptance
import LinkLayer.Proofs.Hearing
import LinkLayer.Proofs.Tracing
import LinkLayer.Proofs.Dormancy
import LinkLayer.Proofs.Decision
import LinkLayer.Proofs.Grammar
import LinkLayer.Proofs.Framing
import LinkLayer.Proofs.Intake
import LinkLayer.Proofs.EndAroundCarry
import LinkLayer.Proofs.Damage
import LinkLayer.Proofs.Editing
import LinkLayer.Proofs.EitherOrder
import LinkLayer.Proofs.Copying
import LinkLayer.Proofs.Queueing
