import Conductor.Completion
import Conductor.Event

/-!
The trail of a session: every step it took, in order, with a line of text and a short tag for
each. The text of a record that shows a task is missing when the task has no display text.
-/

namespace Conductor

/-- What happened to a fault. -/
inductive Disposition where
  | triggered
  | preempted
  | queued
  | dropped
  | unhandled
  | resolved
  | escalated
  | exhausted
deriving DecidableEq

namespace Disposition

def display : Disposition → String
  | triggered => "triggered"
  | preempted => "preempted"
  | queued => "queued"
  | dropped => "dropped"
  | unhandled => "unhandled"
  | resolved => "resolved"
  | escalated => "escalated"
  | exhausted => "exhausted"

instance : Spelled Disposition where
  all := [triggered, preempted, queued, dropped, unhandled, resolved, escalated, exhausted]
  name := display

end Disposition

/-- One entry of a trail. -/
inductive Trail.Record where
  | started (model : String)
  | resolved (task : Handle) (role : String)
  | retired (task : Handle)
  | advanced (pc : Nat) (label : String)
  | skipped (pc : Nat) (label : String)
  | transition (source target : String)
  | finished (model : String) (kind : CompletionKind)
  | failed (model reason : String)
  | fault (fault : Fault) (disposition : Disposition) (response : Option String)
  | stopped (reason : String)
deriving DecidableEq

namespace Trail.Record

/-- The line of text for a record. -/
def text? : Record → Option String
  | started model => some s!"Context started running '{model}'"
  | resolved task role =>
    task.display?.map fun shown => s!"Task {shown} attached as '{role}'"
  | retired task => task.display?.map fun shown => s!"Task {shown} stopped and detached"
  | advanced pc label => some s!"Instruction {pc} '{label}' exited"
  | skipped pc label => some s!"Instruction {pc} '{label}' skipped by its entry guard"
  | transition source target => some s!"Transition fired: {source} -> {target}"
  | finished model kind => some (s!"Model '{model}' finished (" ++ kind.display ++ ")")
  | failed model reason => some s!"Model '{model}' failed: {reason}"
  | fault f disposition response =>
    some ("Fault " ++ f.display ++ " " ++ disposition.display ++
      match response with
      | some name => s!" by '{name}'"
      | none => "")
  | stopped reason => some s!"Context stopped: {reason}"

/-- The tag of a record. -/
def tag? : Record → Option String
  | started model => some s!"context_started:{model}"
  | resolved task _ => task.id.short?.map fun short => s!"task_resolved:{short}"
  | retired task => task.id.short?.map fun short => s!"task_retired:{short}"
  | advanced pc _ => some s!"instruction_advanced:{pc}"
  | skipped pc _ => some s!"instruction_skipped:{pc}"
  | transition source target => some s!"transition:{source}→{target}"
  | finished model _ => some s!"model_finished:{model}"
  | failed model _ => some s!"model_failed:{model}"
  | fault _ disposition _ => some ("fault_" ++ disposition.display)
  | stopped _ => some "context_stopped"

/-- Whether a record is about a task. -/
def involves (task : TaskId) : Record → Bool
  | resolved handle _ => handle.id == task
  | retired handle => handle.id == task
  | fault f _ _ => f.origin == task
  | _ => false

/-- Whether a record says that a fault had the given fate. -/
def isFault (disposition : Disposition) : Record → Bool
  | fault _ d _ => d == disposition
  | _ => false

end Trail.Record

/-- The records so far, the newest first. A disabled trail keeps none. -/
structure Trail where
  enabled : Bool
  newestFirst : List Trail.Record
deriving DecidableEq

namespace Trail

def empty (enabled : Bool) : Trail := ⟨enabled, []⟩

def record (t : Trail) (r : Record) : Trail :=
  if t.enabled then { t with newestFirst := r :: t.newestFirst } else t

/-- Records what can be put into words, on a disabled trail too. -/
def recordShown? (t : Trail) (r : Record) : Option Trail := r.text?.map fun _ => t.record r

def recordAll (t : Trail) (rs : List Record) : Trail := rs.foldl record t

/-- The records in the order they were made. -/
def records (t : Trail) : List Record := t.newestFirst.reverse

def size (t : Trail) : Nat := t.newestFirst.length

def ofTask (t : Trail) (task : TaskId) : List Record := t.records.filter (Record.involves task)

def faults (t : Trail) (d : Disposition) : List Record := t.records.filter (Record.isFault d)

end Trail

end Conductor
