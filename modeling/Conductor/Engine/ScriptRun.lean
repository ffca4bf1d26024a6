import Conductor.Engine.Course
import Conductor.Machine

/-!
Running a script. An instruction is entered by resolving its task, unless its entry guard does
not hold; it is left when its exit guard is true, and the run fails when that guard is false,
since the instruction can then never be left. At most one task is live at any time.
-/

namespace Conductor

structure ScriptRun extends Course where
  script : Script
  /-- Position of the instruction that is active or comes next. -/
  pc : Nat
deriving DecidableEq

namespace ScriptRun

def new (script : Script) (lane : Lane) (depth : Nat) : ScriptRun :=
  { Course.idle lane depth with script, pc := 0 }

def finish (r : ScriptRun) (s : Stage) : Progress × ScriptRun × Stage :=
  let (course, s) := r.toCourse.conclude .finished (.finished r.script.name r.kind) s
  let completion : Completion :=
    ⟨r.script.name, .scriptEnd r.script.instructions.length, r.kind, r.path⟩
  (.finished completion, { r with toCourse := course }, s)

def fail (r : ScriptRun) (error : Error) (s : Stage) : Progress × ScriptRun × Stage :=
  let (course, s) := r.toCourse.conclude .failed (.failed r.script.name error.message) s
  (.failed error, { r with toCourse := course }, s)

/-- Does what stands at the exit of an instruction. The first error ends it. -/
def exitActions (focus : Focus) (task : Option Handle) :
    List ExitAction → Stage → Except Error Unit × Stage
  | [], s => (.ok (), s)
  | action :: rest, s =>
    let (result, s) := match action with
      | .assign a => s.assign a focus task
      | .emit event => s.emitOnRoot event none
    match result with
    | .ok () => exitActions focus task rest s
    | .error e => (.error e, s)

/-- Records what an instruction put out: the payload of the event that let it be left, if the
event is one of the instruction's own task. -/
def recordOutput (r : ScriptRun) (label : String) (step : ActiveStep) (event : Option Event)
    (s : Stage) : Stage :=
  match event, step.task with
  | some e, some task =>
    match e.payload with
    | some value =>
      if e.task = task.id then { s with scopes := s.scopes.recordOutput r.depth label value }
      else s
    | none => s
  | _, _ => s

/-- Leaves the active instruction and moves on to the next one. -/
def exit (r : ScriptRun) (instruction : Instruction) (event : Option Event) (s : Stage) :
    Except Error Unit × ScriptRun × Stage :=
  match r.step with
  | none => (.error .notRunning, r, s)
  | some step =>
    let focus := step.focus r.last
    let via := Course.passedFailure step s.log
    let s := r.recordOutput instruction.label step event s
    let r := { r with step := none }
    match exitActions focus step.task instruction.onExit s with
    | (.error e, s) => (.error e, r, s)
    | (.ok (), s) =>
      let s := (s.retire step.key).recordTrail (.advanced r.pc instruction.label)
      let record := Step.advanced r.pc instruction.label (step.task.map Handle.id) via
      (.ok (), { r with
        path := r.path ++ [record]
        viaFailure := r.viaFailure || via
        last := if step.task.isSome then some focus else r.last
        pc := r.pc + 1 }, s)

/-- Whether the entry guard of an instruction lets it be entered. Here `current` is the task of
the last step that had one. -/
def mayEnter (r : ScriptRun) (instruction : Instruction) (s : Stage) : Bool × Stage :=
  match instruction.entryGuard with
  | none => (true, s)
  | some guard =>
    let focus := r.last.getD ⟨none, s.log.cursor⟩
    let (truth, _, s) := s.evaluate guard focus .empty
    (truth.isTrue, s)

/-- Passes over an instruction that may not be entered. -/
def skip (r : ScriptRun) (instruction : Instruction) (s : Stage) : ScriptRun × Stage :=
  ({ r with path := r.path ++ [.skipped r.pc instruction.label], pc := r.pc + 1 },
    s.recordTrail (.skipped r.pc instruction.label))

/-- Enters the first of the instructions from `pc` on that may be entered and is not left at
once; the run is finished when there is none. -/
def enterFrom : List Instruction → ScriptRun → Stage → Progress × ScriptRun × Stage
  | [], r, s => r.finish s
  | instruction :: rest, r, s =>
    let r := { r with toCourse := r.toCourse.enterStep }
    let since := s.log.cursor
    match r.mayEnter instruction s with
    | (false, s) =>
      let (r, s) := r.skip instruction s
      enterFrom rest r s
    | (true, s) =>
      match r.takeTask instruction.label instruction.source s with
      | (.error e, s) => r.fail e s
      | (.ok task, s) =>
        let r := { r with step := some ⟨r.key instruction.label, task, since⟩ }
        if instruction.exitGuard = .always then
          match r.exit instruction none s with
          | (.error e, r, s) => r.fail e s
          | (.ok (), r, s) => enterFrom rest r s
        else (.advanced, r, r.subscribe [instruction.exitGuard] s)

/-- Enters the instruction at `pc`. -/
def enter (r : ScriptRun) (s : Stage) : Progress × ScriptRun × Stage :=
  enterFrom (r.script.instructions.drop r.pc) r s

/-- Evaluates the exit guard of the active instruction and moves on, fails or waits. -/
def check (r : ScriptRun) (event : Option Event) (s : Stage) : Progress × ScriptRun × Stage :=
  match r.script.instructions[r.pc]?, r.step with
  | none, _ => r.finish s
  | some _, none => (.waiting, r, s)
  | some instruction, some step =>
    let (truth, memo, s) := s.evaluate instruction.exitGuard (step.focus r.last) r.memo
    let r := { r with memo }
    match truth with
    | .yes =>
      match r.exit instruction event s with
      | (.error e, r, s) => r.fail e s
      | (.ok (), r, s) => r.enter s
    | .no => r.fail (.instructionFailed r.pc) s
    | .pending => (.waiting, r, r.subscribe [instruction.exitGuard] s)

/-- Starts at the first instruction. -/
def start (r : ScriptRun) (s : Stage) : Except Error (Progress × ScriptRun × Stage) :=
  if r.status = .running then .error .alreadyRunning
  else if r.script.instructions.isEmpty then .error .emptyScript
  else .ok (enter { r with toCourse := r.toCourse.begin, pc := 0 } s)

/-- Reacts to an event, unless the active instruction has lost its task. -/
def onEvent (r : ScriptRun) (event : Event) (s : Stage) : Progress × ScriptRun × Stage :=
  if r.status ≠ .running || r.step.isNone || r.replaced then (.waiting, r, s)
  else r.check (some event) s

/-- Goes on after a suspension: an instruction that lost its task is entered again, any other is
checked for what happened meanwhile. -/
def resume (r : ScriptRun) (s : Stage) : Progress × ScriptRun × Stage :=
  if r.status ≠ .running then (.waiting, r, s)
  else if r.replaced || r.step.isNone then r.enter s
  else r.check none s

end ScriptRun

end Conductor
