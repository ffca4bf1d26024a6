import Conductor.Stage

/-!
The course of a run: what scripts and machines keep alike while they run, and what they report.
-/

namespace Conductor

/-- What an engine reports after a start or a delivery. -/
inductive Progress where
  | waiting
  | advanced
  | finished (completion : Completion)
  | failed (error : Error)
deriving DecidableEq

def Progress.isTerminal : Progress → Bool
  | finished _ | failed _ => true
  | _ => false

inductive EngineStatus where
  | idle
  | running
  | finished
  | failed
  | stopped
deriving DecidableEq

/-- The step that an engine waits in. -/
structure ActiveStep where
  key : SlotKey
  task : Option Handle
  /-- Where the window of the step opens. -/
  since : Nat
deriving DecidableEq

/-- A step with a task looks at that task; one without looks where the last task was looked at. -/
def ActiveStep.focus (step : ActiveStep) (last : Option Focus) : Focus :=
  match step.task, last with
  | some task, _ => ⟨some task.id, step.since⟩
  | none, some last => last
  | none, none => ⟨none, step.since⟩

structure Course where
  lane : Lane
  /-- Depth of the scope that holds the model's variables. -/
  depth : Nat
  status : EngineStatus
  step : Option ActiveStep
  /-- Focus of the last step that had a task. -/
  last : Option Focus
  /-- How many steps were entered. -/
  activation : Nat
  /-- Leaves decided in the active step. -/
  memo : Memo
  path : List Step
  /-- Whether a failed task was passed on the way here. -/
  viaFailure : Bool
  /-- Whether the task of the active step was taken away by a fault handler. -/
  replaced : Bool
deriving DecidableEq

namespace Course

def idle (lane : Lane) (depth : Nat) : Course :=
  ⟨lane, depth, .idle, none, none, 0, .empty, [], false, false⟩

/-- The course at the start of a run; activations are counted on. -/
def begin (c : Course) : Course :=
  { c with status := .running, step := none, last := none, path := [], viaFailure := false,
           replaced := false }

/-- Entering a step opens a new activation with nothing decided in it. -/
def enterStep (c : Course) : Course :=
  { c with activation := c.activation + 1, memo := .empty, replaced := false }

def key (c : Course) (label : String) : SlotKey := ⟨c.lane, label, c.activation⟩

/-- The task of the active step. -/
def task? (c : Course) : Option Handle := c.step.bind ActiveStep.task

/-- Whether the task of a step failed while the step was active. -/
def passedFailure (step : ActiveStep) (log : Log) : Bool :=
  match step.task with
  | some task => log.failed task.id step.since
  | none => false

/-- Takes the task of the active step away without leaving the step. -/
def retireCurrent (c : Course) (s : Stage) : Course × Stage :=
  match c.step with
  | some step =>
    if step.task.isSome then
      let s := s.retire step.key
      ({ c with step := some { step with task := none }, replaced := true },
        { s with interests := s.interests.clear c.lane })
    else (c, s)
  | none => (c, s)

/-- Ends a run with the given status, leaving nothing behind. -/
def close (c : Course) (status : EngineStatus) (s : Stage) : Course × Stage :=
  ({ c with step := none, status }, s.retireLane c.lane)

/-- Ends a run and records how it ended. -/
def conclude (c : Course) (status : EngineStatus) (record : Trail.Record) (s : Stage) :
    Course × Stage :=
  let (c, s) := c.close status s
  (c, s.recordTrail record)

/-- Stops a run, if one is under way, leaving nothing behind. -/
def stop (c : Course) (s : Stage) : Course × Stage :=
  c.close (if c.status = .running then .stopped else c.status) s

/-- Obtains the task of a step, if the step has one. -/
def takeTask (c : Course) (label : String) (source : Option Source) (s : Stage) :
    Except Error (Option Handle) × Stage :=
  match source with
  | none => (.ok none, s)
  | some source =>
    let (result, s) := s.resolve (c.key label) source
    (result.map some, s)

/-- Waits for what the guards depend on, as the active step looks at it. -/
def subscribe (c : Course) (guards : List Guard) (s : Stage) : Stage :=
  match c.step with
  | some step => s.subscribe c.lane guards (step.focus c.last) (step.task.map Handle.id)
  | none => s

/-- How a run ended. -/
def kind (c : Course) : CompletionKind := if c.viaFailure then .failureRecovered else .nominal

end Course

end Conductor
