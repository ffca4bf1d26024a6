import Conductor.Document
import Conductor.Guard.Evaluation
import Conductor.Slots
import Conductor.Trail

/-!
What is observed of sessions, and what they observe, as documents: lanes, slots, interests, the
view that guards are decided against, and the records of a trail.
-/

namespace Conductor

open Reading

/-- The lane of a document, the model's unless it says otherwise. -/
def Lane.ofDocument : Reading Lane := fun j => do
  match ← textOr "model" "lane" j with
  | "model" => return model
  | "handler" => return handler
  | _ => .error .malformed

def SlotKey.ofDocument : Reading SlotKey := fun j => do
  return ⟨← Lane.ofDocument j, ← text "step" j, ← sizeOr 1 "activation" j⟩

/-- An event on a task, as a pair. -/
def Interests.pairOfDocument : Reading Interest
  | .arr [.str task, .str event] => .ok (⟨task⟩, ⟨event⟩)
  | _ => .error .malformed

def View.ofDocument (log : Log) : Reading View := fun j => do
  return {
    log
    root := ⟨← textOr "root" "root" j⟩
    current := ← optional taskIdOf "current" j
    since := ← sizeOr 0 "since" j
    vars := ← mapped valueOf "variables" j }

/-- The record of the type with the given name. -/
def Trail.Record.ofDocument (name : String) : Reading Trail.Record := fun j => do
  match name with
  | "started" => return started (← text "model" j)
  | "resolved" => return resolved (← required handleOf "task" j) (← textOr "" "role" j)
  | "retired" => return retired (← required handleOf "task" j)
  | "advanced" => return advanced (← Reading.size "pc" j) (← text "label" j)
  | "skipped" => return skipped (← Reading.size "pc" j) (← text "label" j)
  | "transition" => return transition (← text "from" j) (← text "to" j)
  | "finished" => return finished (← text "model" j) (← required spelled "kind" j)
  | "failed" => return failed (← text "model" j) (← text "reason" j)
  | "fault" =>
    return fault (← required Fault.ofDocument "fault" j) (← required spelled "outcome" j)
      (← optional (plain Json.str?) "entry" j)
  | "stopped" => return stopped (← text "reason" j)
  | _ => .error .malformed

end Conductor
