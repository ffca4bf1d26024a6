import Conductor.Json

/-!
Tasks as a plan sees them: identifiers, handles and lifecycle states. A handle is shown with the
first eight bytes of its identifier, and has no display text when the cut would fall inside a
character.
-/

namespace Conductor

/-- Identifier of a task, unique in its plan. -/
structure TaskId where
  text : String
deriving DecidableEq

instance : Key TaskId :=
  Key.onField TaskId.text fun {a b} h => by cases a; cases b; simpa using h

/-- The characters that fill `size` bytes exactly, or all of them when they take no more; nothing
when the limit falls inside a character. -/
def takeBytes? : Nat → List Char → Option (List Char)
  | _, [] => some []
  | 0, _ :: _ => some []
  | size + 1, c :: rest =>
    if c.utf8Size ≤ size + 1 then (takeBytes? (size + 1 - c.utf8Size) rest).map (c :: ·) else none

/-- The first eight bytes of an identifier. -/
def TaskId.short? (id : TaskId) : Option String :=
  (takeBytes? 8 id.text.toList).map String.ofList

/-- A reference to a task: its identifier and the task model it was made from. -/
structure Handle where
  id : TaskId
  model : String
deriving DecidableEq

/-- The model with the short form of the identifier in angle brackets. -/
def Handle.display? (h : Handle) : Option String :=
  h.id.short?.map fun short => h.model ++ "<" ++ short ++ ">"

/-- Lifecycle state of a task as its plan reports it. -/
inductive TaskState where
  | pending
  | started
  | running
  | success
  | failed
  | finalized
deriving DecidableEq

namespace TaskState

def display : TaskState → String
  | pending => "pending"
  | started => "started"
  | running => "running"
  | success => "success"
  | failed => "failed"
  | finalized => "finalized"

instance : Spelled TaskState where
  all := [pending, started, running, success, failed, finalized]
  name := display

def isPending : TaskState → Bool
  | pending => true
  | _ => false

def isRunning : TaskState → Bool
  | started | running => true
  | _ => false

/-- A task in a terminal state has ended. -/
def isTerminal : TaskState → Bool
  | success | failed | finalized => true
  | _ => false

end TaskState

namespace TaskId

def toJson (id : TaskId) : Json := .str id.text

def ofJson? (j : Json) : Option TaskId := j.str?.map TaskId.mk

end TaskId

namespace Handle

def toJson (h : Handle) : Json := .obj [("id", h.id.toJson), ("model", .str h.model)]

def ofJson? (j : Json) : Option Handle := do
  match ← j.record? ["id", "model"] with
  | [some id, some model] => return ⟨← TaskId.ofJson? id, ← model.str?⟩
  | _ => none

end Handle

end Conductor
