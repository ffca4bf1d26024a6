import Conductor.Document.Ground
import Conductor.Document.Observation
import Conductor.Document.Session
import Conductor.Json.Writer
import Conductor.Proofs.Action
import Conductor.Proofs.Display
import Conductor.Proofs.Engine.FirstMatch
import Conductor.Proofs.Engine.Lookups
import Conductor.Proofs.Engine.Restarts
import Conductor.Proofs.Engine.Strides
import Conductor.Proofs.Fault.Decisions
import Conductor.Proofs.Guard.Kleene
import Conductor.Proofs.Guard.Stability
import Conductor.Proofs.Hub.Counting
import Conductor.Proofs.Hub.Order
import Conductor.Proofs.Hub.Tally
import Conductor.Proofs.Json.RoundTrip
import Conductor.Proofs.Plan.Ancestry
import Conductor.Proofs.Plan.Integrity
import Conductor.Proofs.Scopes.Kinds
import Conductor.Proofs.Session.Attention
import Conductor.Proofs.Session.Backlog
import Conductor.Proofs.Session.Choices
import Conductor.Proofs.Session.Conservation
import Conductor.Proofs.Session.Courses
import Conductor.Proofs.Session.DeadEnds
import Conductor.Proofs.Session.Entries
import Conductor.Proofs.Session.Frozen
import Conductor.Proofs.Session.Lanes
import Conductor.Proofs.Session.Ledger
import Conductor.Proofs.Session.Lifecycle
import Conductor.Proofs.Session.Memory
import Conductor.Proofs.Session.NoOrphans
import Conductor.Proofs.Session.Notices
import Conductor.Proofs.Session.Outcomes
import Conductor.Proofs.Session.Precedence
import Conductor.Proofs.Session.Quiescence
import Conductor.Proofs.Session.Reentry
import Conductor.Proofs.Session.Roles
import Conductor.Proofs.Session.StepOutputs
import Conductor.Proofs.Session.Variables
import Conductor.Proofs.Slots.Emptying
import Conductor.Proofs.Slots.Failures
import Conductor.Proofs.Slots.Stability
import Conductor.Proofs.Stage.Reads
import Conductor.Report.Model
import Conductor.Report.Session
import Conductor.Report.Trail
