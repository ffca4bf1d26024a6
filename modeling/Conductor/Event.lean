import Conductor.Value.Json

/-!
Events that tasks emit and faults reported on them. An event cannot be undone once it was
observed. Three names end a task, and each of them counts as a stop.
-/

namespace Conductor

structure EventName where
  text : String
deriving DecidableEq

instance : Key EventName :=
  Key.onField EventName.text fun {a b} h => by cases a; cases b; simpa using h

namespace EventName

def start : EventName := ⟨"start"⟩
def success : EventName := ⟨"success"⟩
def failed : EventName := ⟨"failed"⟩
def stop : EventName := ⟨"stop"⟩

/-- The names that end a task. -/
def terminals : List EventName := [success, failed, stop]

def isTerminal (name : EventName) : Bool := name ∈ terminals

def isFailure (name : EventName) : Bool := name == failed

/-- Whether observing `name` also counts as observing `other`: every ending is a stop. -/
def implies (name other : EventName) : Bool :=
  name == other || (other == stop && name.isTerminal)

def toJson (name : EventName) : Json := .str name.text

def ofJson? (j : Json) : Option EventName := j.str?.map EventName.mk

end EventName

/-- An occurrence on a task, with the value it carries. -/
structure Event where
  task : TaskId
  name : EventName
  payload : Option Value
deriving DecidableEq

def Event.toJson (e : Event) : Json :=
  let payload := match e.payload with
    | some v => [("payload", v.toJson)]
    | none => []
  .obj ([("task", e.task.toJson), ("name", e.name.toJson)] ++ payload)

/-- An abnormal condition reported on a task. The ancestry lists the tasks above the origin,
nearest first. -/
structure Fault where
  origin : TaskId
  category : String
  message : String
  ancestry : List TaskId
deriving DecidableEq

namespace Fault

/-- Whether a task is the origin or one of its ancestors. -/
def involves (f : Fault) (task : TaskId) : Bool := f.origin == task || task ∈ f.ancestry

def display (f : Fault) : String :=
  f.category ++ " on " ++ f.origin.text ++ if f.message.isEmpty then "" else ": " ++ f.message

def toJson (f : Fault) : Json :=
  let message := if f.message.isEmpty then [] else [("message", .str f.message)]
  let ancestry :=
    if f.ancestry.isEmpty then [] else [("ancestry", .arr (f.ancestry.map TaskId.toJson))]
  .obj ([("origin", f.origin.toJson), ("category", .str f.category)] ++ message ++ ancestry)

end Fault

/-- What a plan reports, in the order it happened. -/
inductive Signal where
  | event (e : Event)
  | fault (f : Fault)
deriving DecidableEq

/-- The task a signal is about. -/
def Signal.task : Signal → TaskId
  | event e => e.task
  | fault f => f.origin

end Conductor
