import Conductor.Engine.Course
import Conductor.Machine

/-!
Running a state machine. A state is entered by resolving its task. After every delivery the
transitions of the state are tried in order and the first whose guard is true is taken; the run
fails when all of them are false, since the state can then never be left.
-/

namespace Conductor

structure MachineRun extends Course where
  machine : Machine
  /-- The state that was entered last. -/
  state : Option String
deriving DecidableEq

namespace MachineRun

def new (machine : Machine) (lane : Lane) (depth : Nat) : MachineRun :=
  { Course.idle lane depth with machine, state := none }

def finish (r : MachineRun) (state : String) (s : Stage) : Progress × MachineRun × Stage :=
  let (course, s) := r.toCourse.conclude .finished (.finished r.machine.name r.kind) s
  let completion : Completion := ⟨r.machine.name, .state state, r.kind, r.path⟩
  (.finished completion, { r with toCourse := course }, s)

def fail (r : MachineRun) (error : Error) (s : Stage) : Progress × MachineRun × Stage :=
  let (course, s) := r.toCourse.conclude .failed (.failed r.machine.name error.message) s
  (.failed error, { r with toCourse := course }, s)

/-- What a state waits for: its transitions and the events that it forwards. -/
def guardsOf (state : State) : List Guard :=
  state.transitions.map Transition.guard ++ state.forwards.map fun f => .on f.event

/-- Enters a state. A final marker ends the run at once. -/
def enter (r : MachineRun) (id : String) (s : Stage) : Progress × MachineRun × Stage :=
  match r.machine.state? id with
  | none => r.fail (.unknownState id) s
  | some state =>
    let r := { r with toCourse := r.toCourse.enterStep, state := some id }
    let since := s.log.cursor
    if state.isFinalMarker then r.finish id s
    else
      match r.takeTask state.id state.source s with
      | (.error e, s) => r.fail e s
      | (.ok task, s) =>
        let r := { r with step := some ⟨r.key id, task, since⟩ }
        (.advanced, r, r.subscribe (guardsOf state) s)

/-- Makes the updates of a transition. The first error ends it. -/
def applyUpdates (focus : Focus) (task : Option Handle) :
    List Assignment → Stage → Except Error Unit × Stage
  | [], s => (.ok (), s)
  | a :: rest, s =>
    match s.assign a focus task with
    | (.ok (), s) => applyUpdates focus task rest s
    | (.error e, s) => (.error e, s)

/-- Takes a transition of the active state. -/
def takeTransition (r : MachineRun) (state : State) (position : Nat) (t : Transition)
    (step : ActiveStep) (s : Stage) : Progress × MachineRun × Stage :=
  let focus := step.focus r.last
  let via := Course.passedFailure step s.log
  let r := { r with step := none }
  match applyUpdates focus step.task t.updates s with
  | (.error e, s) => r.fail e s
  | (.ok (), s) =>
    let s := (s.retire step.key).recordTrail (.transition state.id t.target)
    let r := { r with
      path := r.path ++ [Step.transition state.id t.target position via]
      viaFailure := via
      last := if step.task.isSome then some focus else r.last }
    r.enter t.target s

/-- What came of trying transitions in order: the first whose guard is true with its position, or
whether all guards were false. -/
inductive Verdict where
  | take (position : Nat) (transition : Transition)
  | none (allFalse : Bool)

/-- Tries transitions in order until a guard is true. -/
def tryTransitions (focus : Focus) :
    List Transition → Nat → Bool → Memo → Stage → Verdict × Memo × Stage
  | [], _, allFalse, memo, s => (.none allFalse, memo, s)
  | t :: rest, position, allFalse, memo, s =>
    let (truth, memo, s) := s.evaluate t.guard focus memo
    match truth with
    | .yes => (.take position t, memo, s)
    | .no => tryTransitions focus rest (position + 1) allFalse memo s
    | .pending => tryTransitions focus rest (position + 1) false memo s

/-- Looks for a transition out of a state, or for the end that a terminal state with a task comes
to when that task succeeds. -/
def check (r : MachineRun) (state : State) (s : Stage) : Progress × MachineRun × Stage :=
  match r.step with
  | none => (.waiting, r, s)
  | some step =>
    let ended : Bool := match step.task with
      | some task => s.log.finished task.id step.since
      | none => false
    if state.terminal then
      match step.task with
      | none => r.finish state.id s
      | some task =>
        if s.log.occurred task.id .success step.since then r.finish state.id s
        else if ended then r.fail (.noApplicableTransition state.id) s
        else (.waiting, r, s)
    else
      match tryTransitions (step.focus r.last) state.transitions 0 true r.memo s with
      | (.take position t, memo, s) => takeTransition { r with memo } state position t step s
      | (.none allFalse, memo, s) =>
        let r := { r with memo }
        if if state.transitions.isEmpty then ended else allFalse then
          r.fail (.noApplicableTransition state.id) s
        else (.waiting, r, r.subscribe (guardsOf state) s)

/-- Starts in the initial state. -/
def start (r : MachineRun) (s : Stage) : Except Error (Progress × MachineRun × Stage) :=
  if r.status = .running then .error .alreadyRunning
  else .ok (enter { r with toCourse := r.toCourse.begin, state := none } r.machine.initial s)

/-- Emits on the root what a state forwards of an event. The first error ends it. -/
def forward (event : Event) : List Forward → Stage → Except Error Unit × Stage
  | [], s => (.ok (), s)
  | f :: rest, s =>
    if f.event = event.name then
      match s.emitOnRoot f.emitted event.payload with
      | (.ok (), s) => forward event rest s
      | (.error e, s) => (.error e, s)
    else forward event rest s

/-- Reacts to an event, unless the active state has lost its task: an event of the state's own
task is forwarded first. -/
def onEvent (r : MachineRun) (event : Event) (s : Stage) : Progress × MachineRun × Stage :=
  if r.status ≠ .running || r.replaced then (.waiting, r, s)
  else
    match r.state.bind r.machine.state? with
    | none => (.waiting, r, s)
    | some state =>
      if r.task?.map Handle.id = some event.task then
        match forward event state.forwards s with
        | (.error e, s) => r.fail e s
        | (.ok (), s) => r.check state s
      else r.check state s

/-- Goes on after a suspension: a state that lost its task is entered again, any other is checked
for what happened meanwhile. -/
def resume (r : MachineRun) (s : Stage) : Progress × MachineRun × Stage :=
  if r.status ≠ .running then (.waiting, r, s)
  else
    match r.state with
    | none => (.waiting, r, s)
    | some id =>
      if r.replaced || r.step.isNone then r.enter id s
      else
        match r.machine.state? id with
        | some state => r.check state s
        | none => r.fail (.unknownState id) s

end MachineRun

end Conductor
