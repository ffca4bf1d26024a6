import Conductor.Fault.Pattern
import Conductor.Machine

/-!
Responses to faults: which model handles a fault, how urgent it is, how far away the fault may
be, and how the suspended model goes on afterwards.
-/

namespace Conductor

/-- Which faults a response is open to: those of the root and its direct children, or those
anywhere below the root. -/
inductive Reach where
  | direct
  | propagating
deriving DecidableEq

instance : Spelled Reach where
  all := [.direct, .propagating]
  name
    | .direct => "local"
    | .propagating => "propagating"

/-- How the suspended model goes on once the fault is handled. -/
inductive Resumption where
  | restart
  | goOn
deriving DecidableEq

instance : Spelled Resumption where
  all := [.restart, .goOn]
  name
    | .restart => "restart"
    | .goOn => "continue"

/-- The life of a response: idle, triggered, handling, then resolved or escalated, then idle. -/
inductive Phase where
  | idle
  | triggered
  | handling
  | resolved
  | escalated
deriving DecidableEq

namespace Phase

def display : Phase → String
  | idle => "idle"
  | triggered => "triggered"
  | handling => "handling"
  | resolved => "resolved"
  | escalated => "escalated"

instance : Spelled Phase where
  all := [idle, triggered, handling, resolved, escalated]
  name := display

/-- Whether one phase may follow another. -/
def mayBecome : Phase → Phase → Bool
  | idle, triggered => true
  | triggered, handling => true
  | triggered, escalated => true
  | handling, resolved => true
  | handling, escalated => true
  | handling, idle => true
  | resolved, idle => true
  | escalated, idle => true
  | _, _ => false

end Phase

structure Response where
  name : String
  pattern : FaultPattern
  handler : Model
  /-- The higher one wins; of equal ones the earlier. -/
  priority : Int
  reach : Reach
  resumption : Resumption
  /-- The task of the suspended model is retired when the handler starts. -/
  replaces : Bool
deriving DecidableEq

end Conductor
