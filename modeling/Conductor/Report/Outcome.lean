import Conductor.Session

/-!
Reports, as JSON, of what became of a step: errors, the progress of an engine and the outcome of a
session. Progress and outcomes that end a run are marked as terminal.
-/

namespace Conductor

namespace Error

/-- The kind of an error. -/
def kind : Error → String
  | unresolvableSource _ => "UnresolvableSource"
  | unboundVariable _ => "UnboundVariable"
  | notATask _ => "NotATask"
  | instructionFailed _ => "InstructionFailed"
  | noApplicableTransition _ => "NoApplicableTransition"
  | alreadyRunning => "AlreadyRunning"
  | emptyScript => "EmptyScript"
  | escalationExhausted => "HandlerEscalationExhausted"
  | notRunning => "NotRunning"
  | unknownContext _ => "UnknownContext"
  | noInitialState => "NoInitialState"
  | duplicateState _ => "DuplicateState"
  | unknownState _ => "UnknownState"
  | invalidModel _ => "InvalidModel"
  | typeMismatch .. => "TypeMismatch"
  | provider _ => "Provider"

def members (e : Error) : List (String × Json) :=
  [("error", .str e.kind), ("message", .str e.message)]

def toJson (e : Error) : Json := .obj e.members

end Error

def terminalMark (terminal : Bool) : List (String × Json) :=
  if terminal then [("terminal", .bool true)] else []

namespace Progress

def name : Progress → String
  | waiting => "waiting"
  | advanced => "advanced"
  | finished _ => "finished"
  | failed _ => "failed"

def details : Progress → List (String × Json)
  | finished c => [("completion", c.toJson)]
  | failed e => [("cause", e.toJson)]
  | _ => []

def toJson (p : Progress) : Json :=
  .obj ([("progress", .str p.name)] ++ p.details ++ terminalMark p.isTerminal)

end Progress

namespace Outcome

def name : Outcome → String
  | ignored => "ignored"
  | waiting => "waiting"
  | advanced => "advanced"
  | handlerStarted _ => "handler_started"
  | faultResolved _ => "fault_resolved"
  | faultQueued => "fault_queued"
  | faultUnhandled => "fault_unhandled"
  | succeeded _ => "succeeded"
  | recovered _ => "recovered"
  | failed _ => "failed"
  | stopped => "stopped"

def details : Outcome → List (String × Json)
  | handlerStarted response => [("entry", .str response)]
  | faultResolved response => [("entry", .str response)]
  | succeeded c => [("completion", c.toJson)]
  | recovered c => [("completion", c.toJson)]
  | failed e => [("cause", e.toJson)]
  | _ => []

def toJson (o : Outcome) : Json :=
  .obj ([("outcome", .str o.name)] ++ o.details ++ terminalMark o.isTerminal)

end Outcome

end Conductor
