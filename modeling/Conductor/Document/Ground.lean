import Conductor.Document
import Conductor.Ground

/-!
Grounds and the commands on them as documents.
-/

namespace Conductor.Ground

open Reading

/-- An argument of a root, which is given by its position. -/
def argumentOfDocument (g : Ground) : Reading (Handle × String × Value) := fun j => do
  return (← need (g.root? (← size "root" j)), ← text "name" j, ← required valueOf "value" j)

/-- A plan with known models if they are given, then its roots, tasks and root arguments. -/
def ofDocument : Reading Ground := fun j => do
  let models ← optional (items (plain Json.str?)) "models" j
  let roots ← texts "roots" j
  let tasks ← listed Description.ofDocument "tasks" j
  let g := ofRoots (models.elim .empty Plan.empty.withModels) roots
  let g ← tasks.foldlM (fun g d => valid <| match g.perform (.instantiate d) with
    | .ok (_, g) => .ok g
    | .error e => .error (.provider e)) g
  let arguments ← listed g.argumentOfDocument "root_arguments" j
  return { g with plan :=
    arguments.foldl (fun p a => p.setRootArgument a.1.id a.2.1 a.2.2) g.plan }

/-- The command with the given name; its operands are members of the document. -/
def Command.ofDocument (name : String) : Reading Command := fun j => do
  let task := required handleOf "task" j
  let parent := required handleOf "parent" j
  let event := required eventNameOf "event" j
  let payload := optional valueOf "payload" j
  let role := text "role" j
  match name with
  | "succeed" => return happen (← task) .success none
  | "fail" => return happen (← task) .failed none
  | "emit" => return happen (← task) (← event) (← payload)
  | "raise" => return raise (← task) (← text "category" j)
  | "record" => return record ⟨(← task).id, ← event, ← payload⟩
  | "add_root" => return addRoot (← text "model" j)
  | "instantiate" => return instantiate (← Description.ofDocument j)
  | "start_task" => return start (← task)
  | "stop_task" => return stop (← task)
  | "attach" => return attach (← parent) (← task) (← role)
  | "detach" => return detach (← parent) (← task) (← role)
  | "set_argument" =>
    return setArgument (← task) (← text "name" j) (← required valueOf "value" j)
  | "set_root_argument" =>
    return setRootArgument (← task) (← text "name" j) (← required valueOf "value" j)
  | "argument" => return argument (← task) (← text "name" j)
  | "provider_emit" => return emit (← task) (← event) (← payload)
  | "state" => return state (← task)
  | "ancestry" => return ancestry (← task)
  | "poll" => return poll
  | "subscribe" => return subscribe (← task) (← event)
  | "unsubscribe" => return unsubscribe (← task) (← event)
  | "is_subscribed" => return isSubscribed (← task) (← event)
  | _ => .error .malformed

end Conductor.Ground
