import Conductor.Script

/-!
State machines: a graph of states, each with at most one task. Transitions are tried in the order
of their declaration and the first whose guard holds is taken.
-/

namespace Conductor

structure Transition where
  guard : Guard
  target : String
  /-- Assignments made when the transition is taken. -/
  updates : List Assignment
deriving DecidableEq

/-- An event of the state's task is emitted on the root under another name. -/
structure Forward where
  event : EventName
  emitted : EventName
deriving DecidableEq

structure State where
  id : String
  source : Option Source
  transitions : List Transition
  forwards : List Forward
  /-- Reaching a terminal state ends the machine. -/
  terminal : Bool
deriving DecidableEq

/-- A terminal state without a task ends the machine as soon as it is entered. -/
def State.isFinalMarker (s : State) : Bool := s.terminal && s.source.isNone

structure Machine where
  name : String
  vars : List Declaration
  states : List State
  initial : String
deriving DecidableEq

namespace Machine

def state? (m : Machine) (id : String) : Option State := m.states.find? fun s => s.id == id

def initialState? (m : Machine) : Option State := m.state? m.initial

def terminalStates (m : Machine) : List State := m.states.filter State.terminal

/-- The first thing wrong with the transitions of a state, given the declared states. -/
def transitionError? (ids : List String) (s : State) : Option Error :=
  if s.terminal && !s.transitions.isEmpty then
    some (.invalidModel (.terminalWithTransitions s.id))
  else
    (s.transitions.find? fun t => t.target ∉ ids).map fun t => .unknownState t.target

/-- A machine with an initial state, distinct states and variables, transitions to declared
states only, and none out of a terminal state. -/
def build (name : String) (vars : List Declaration) (states : List State)
    (initial : Option String) : Except Error Machine :=
  match initial with
  | none => .error .noInitialState
  | some initial =>
    let ids := states.map State.id
    match firstRepeated? [] ids with
    | some id => .error (.duplicateState id)
    | none =>
      match states.findSome? (transitionError? ids) with
      | some e => .error e
      | none =>
        match firstRepeated? [] (vars.map Declaration.name) with
        | some declared => .error (.invalidModel (.machineVariableTwice name declared))
        | none => .ok ⟨name, vars, states, initial⟩

end Machine

/-- Anything that can run. -/
inductive Model where
  | script (s : Script)
  | machine (m : Machine)
deriving DecidableEq

namespace Model

def name : Model → String
  | script s => s.name
  | machine m => m.name

def vars : Model → List Declaration
  | script s => s.vars
  | machine m => m.vars

end Model

end Conductor
