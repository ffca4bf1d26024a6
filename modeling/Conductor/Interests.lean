import Conductor.Event

/-!
Interests: the events that the model and the active handler wait for. Changes to the union of the
two are kept in order until someone takes them.
-/

namespace Conductor

/-- The two engines of a session: the normal model, and the handler of a fault. -/
inductive Lane where
  | model
  | handler
deriving DecidableEq

def Lane.display : Lane → String
  | model => "model"
  | handler => "handler"

/-- An event on a task. -/
abbrev Interest := TaskId × EventName

inductive InterestChange where
  | subscribe (task : TaskId) (event : EventName)
  | unsubscribe (task : TaskId) (event : EventName)
deriving DecidableEq

structure Interests where
  model : KeySet Interest
  handler : KeySet Interest
  /-- Changes not taken yet, the oldest first. -/
  changes : List InterestChange
deriving DecidableEq

namespace Interests

def empty : Interests := ⟨.empty, .empty, []⟩

def lane (i : Interests) : Lane → KeySet Interest
  | .model => i.model
  | .handler => i.handler

/-- The members of the first set that neither of the others has. -/
def missingFrom (s t u : KeySet Interest) : List Interest :=
  s.keys.filter fun p => !t.contains p && !u.contains p

/-- Replaces what a lane waits for. What neither the lane nor the other one waits for any longer is
unsubscribed, then what neither waited for before is subscribed. -/
def replace (i : Interests) (lane : Lane) (wanted : KeySet Interest) : Interests :=
  let other := match lane with
    | .model => i.handler
    | .handler => i.model
  let dropped := (missingFrom (i.lane lane) wanted other).map fun p => .unsubscribe p.1 p.2
  let added := (missingFrom wanted (i.lane lane) other).map fun p => .subscribe p.1 p.2
  let changes := i.changes ++ dropped ++ added
  match lane with
  | .model => { i with model := wanted, changes }
  | .handler => { i with handler := wanted, changes }

def clear (i : Interests) (lane : Lane) : Interests := i.replace lane .empty

def clearAll (i : Interests) : Interests := (i.clear .handler).clear .model

/-- Whether a lane waits for an event that this one counts as. -/
def wants (i : Interests) (task : TaskId) (name : EventName) : Bool :=
  (i.model.keys ++ i.handler.keys).any fun p => p.1 == task && name.implies p.2

def size (i : Interests) : Nat := i.model.size + i.handler.size

def takeChanges (i : Interests) : List InterestChange × Interests :=
  (i.changes, { i with changes := [] })

end Interests

end Conductor
