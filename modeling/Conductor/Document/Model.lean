import Conductor.Document
import Conductor.Machine

/-!
Models as documents. A model with a script's name is a script, any other one is a machine.
-/

namespace Conductor

open Reading

def Argument.ofDocument : Reading Argument := fun j => do
  match ← optional valueOf "value" j with
  | some v => return .value v
  | none => return .read (← text "variable" j)

namespace Source

/-- A task that is described in place. -/
def planOfDocument : Reading Source := fun j => do
  return plan (← text "name" j) (← Description.ofDocument j)

/-- The kind of a source and its name, by the first member that tells. -/
def bareOfDocument : Reading Source := fun j => do
  match ← optional (plain Json.str?) "action" j with
  | some name => return action name .empty
  | none =>
    match ← optional (plain Json.str?) "builder" j with
    | some name => return builder name .empty
    | none =>
      match ← optional (plain Json.str?) "variable" j with
      | some name => return held name
      | none => required planOfDocument "plan" j

def ofDocument : Reading Source := fun j => do
  let source ← bareOfDocument j
  let arguments ← mapped Argument.ofDocument "arguments" j
  return arguments.entries.foldl (fun s e => s.withArgument e.1 e.2) source

end Source

def ExitAction.ofDocument : Reading ExitAction := fun j => do
  match ← optional (plain Assignment.ofJson?) "assign" j with
  | some a => return .assign a
  | none => return .emit (← required eventNameOf "emit" j)

namespace Instruction

/-- An instruction that emits, runs a task, or else waits for nothing. -/
def bareOfDocument (label : String) : Reading Instruction := fun j => do
  match ← optional eventNameOf "emit" j with
  | some event => return emit label event
  | none =>
    match ← optional Source.ofDocument "source" j with
    | some source => return run label source
    | none => return wait label .always

def ofDocument : Reading Instruction := fun j => do
  let base ← bareOfDocument (← text "label" j) j
  let exitGuard ← defaulting guardOf base.exitGuard "until" j
  let entryGuard ← optional guardOf "when" j
  let onExit ← listed ExitAction.ofDocument "on_exit" j
  return { base with exitGuard, entryGuard, onExit := base.onExit ++ onExit }

end Instruction

def Transition.ofDocument : Reading Transition := fun j => do
  return ⟨← required guardOf "guard" j, ← text "target" j,
    ← listed (plain Assignment.ofJson?) "updates" j⟩

def Forward.ofDocument : Reading Forward := fun j => do
  return ⟨← required eventNameOf "from" j, ← required eventNameOf "to" j⟩

def State.ofDocument : Reading State := fun j => do
  return ⟨← text "id" j, ← optional Source.ofDocument "source" j,
    ← listed Transition.ofDocument "transitions" j, ← listed Forward.ofDocument "forwards" j,
    ← flag false "terminal" j⟩

/-- A state, and whether it is marked as the initial one. -/
def State.markedOfDocument : Reading (State × Bool) := fun j => do
  return (← State.ofDocument j, ← flag false "initial" j)

/-- The last of the states that are marked as initial is the initial one. -/
def Machine.ofDocument (name : String) : Reading Machine := fun j => do
  let vars ← Declaration.allOfDocument j
  let states ← listed State.markedOfDocument "states" j
  let initial := (states.reverse.find? fun s => s.2).map fun s => s.1.id
  valid (Machine.build name vars (states.map Prod.fst) initial)

def Script.ofDocument (name : String) : Reading Script := fun j => do
  let vars ← Declaration.allOfDocument j
  valid (Script.build name vars (← listed Instruction.ofDocument "instructions" j))

def Model.ofDocument : Reading Model := fun j => do
  match ← optional (plain Json.str?) "script" j with
  | some name => return .script (← Script.ofDocument name j)
  | none => return .machine (← Machine.ofDocument (← text "machine" j) j)

end Conductor
