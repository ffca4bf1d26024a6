import Conductor.Engine.MachineRun
import Conductor.Engine.ScriptRun

/-!
Engines: the run of a script or of a state machine.
-/

namespace Conductor

inductive Engine where
  | script (r : ScriptRun)
  | machine (r : MachineRun)
deriving DecidableEq

namespace Engine

/-- An idle engine whose model keeps its variables in the scope at the given depth. -/
def new (model : Model) (lane : Lane) (depth : Nat) : Engine :=
  match model with
  | .script s => script (.new s lane depth)
  | .machine m => machine (.new m lane depth)

def course : Engine → Course
  | script r => r.toCourse
  | machine r => r.toCourse

def withCourse (c : Course) : Engine → Engine
  | script r => script { r with toCourse := c }
  | machine r => machine { r with toCourse := c }

def name : Engine → String
  | script r => r.script.name
  | machine r => r.machine.name

def status (e : Engine) : EngineStatus := e.course.status

def isRunning (e : Engine) : Bool := e.status == .running

/-- The task of the active step. -/
def task? (e : Engine) : Option Handle := e.course.task?

/-- Where the engine is, in words. -/
def position : Engine → String
  | script r => "pc " ++ toString r.pc
  | machine r =>
    match r.state with
    | some id => s!"state '{id}'"
    | none => "no state"

def asScript (result : Progress × ScriptRun × Stage) : Progress × Engine × Stage :=
  (result.1, script result.2.1, result.2.2)

def asMachine (result : Progress × MachineRun × Stage) : Progress × Engine × Stage :=
  (result.1, machine result.2.1, result.2.2)

def start (e : Engine) (s : Stage) : Except Error (Progress × Engine × Stage) :=
  match e with
  | script r => (r.start s).map asScript
  | machine r => (r.start s).map asMachine

/-- Reacts to an event that was delivered. -/
def onEvent (e : Engine) (event : Event) (s : Stage) : Progress × Engine × Stage :=
  match e with
  | script r => asScript (r.onEvent event s)
  | machine r => asMachine (r.onEvent event s)

/-- Goes on after a suspension. -/
def resume (e : Engine) (s : Stage) : Progress × Engine × Stage :=
  match e with
  | script r => asScript (r.resume s)
  | machine r => asMachine (r.resume s)

/-- Takes the task of the active step away without leaving the step. -/
def retireCurrent (e : Engine) (s : Stage) : Engine × Stage :=
  let (c, s) := e.course.retireCurrent s
  (e.withCourse c, s)

/-- Stops, leaving nothing behind. -/
def stop (e : Engine) (s : Stage) : Engine × Stage :=
  let (c, s) := e.course.stop s
  (e.withCourse c, s)

/-- Drops everything but written variables and starts again. -/
def restart (e : Engine) (s : Stage) : Progress × Engine × Stage :=
  let (e, s) := e.stop s
  let s := { s with scopes := s.scopes.reset e.course.depth }
  match e.start s with
  | .ok result => result
  | .error error => (.failed error, e, s)

end Engine

end Conductor
