import Conductor.Proofs.Engine.Reentry
import Conductor.Proofs.Stage.Verdict
import Mathlib.Logic.Relation

/-!
The paces of engines. Whatever an act makes of the run of a script or of a machine it makes by paces, one
after the other, while nothing is recorded. So what each pace keeps is kept by every run. Some paces are
those of any course, the others are of scripts or of machines alone.

The marks that the paces of a script leave, with the events that are recorded between the acts, make up
the history of a run. The run itself keeps neither: they say when an instruction was entered and left.
-/

namespace Conductor

/-! ## Courses -/

namespace Course

/-- What may come next in any course when so much is recorded. -/
inductive Pace (log : Log) (root : TaskId) (c : Course) : Course → Prop where
  /-- A guard of the active step is evaluated. -/
  | weigh {step : ActiveStep} (guard : Guard) (vars : Dict String Value) :
    c.step = some step → c.replaced = false →
    Pace log root c
      { c with memo := (guard.evaluate
          ⟨log, root, (step.focus c.last).task, (step.focus c.last).since, vars⟩ c.memo).2 }
  /-- The run fails or is stopped. -/
  | quit {status : EngineStatus} : c.status = .running → status = .failed ∨ status = .stopped →
    Pace log root c { c with step := none, status }
  /-- A run that is over stays so. -/
  | rest : c.status ≠ .running → Pace log root c { c with step := none }
  /-- A response takes the task of the active step away. -/
  | lose {step : ActiveStep} : c.step = some step →
    Pace log root c { c with step := some { step with task := none }, replaced := true }

variable {log : Log} {root : TaskId} {c : Course} {step : ActiveStep} {s : Stage}

theorem evaluate_pace (hstep : c.step = some step) (hreplaced : c.replaced = false) (guard : Guard)
    (s : Stage) : c.Pace s.log s.root
      { c with memo := (s.evaluate guard (step.focus c.last) c.memo).2.1 } := by
  simp only [Stage.evaluate, Stage.view_eq]
  exact .weigh guard _ hstep hreplaced

theorem retireCurrent_pace (c : Course) (s : Stage) :
    (c.retireCurrent s).1 = c ∨ c.Pace log root (c.retireCurrent s).1 := by
  unfold retireCurrent
  split
  · rename_i step hstep
    split
    · exact .inr (.lose hstep)
    · exact .inl rfl
  · exact .inl rfl

theorem stop_pace (c : Course) (s : Stage) : c.Pace log root (c.stop s).1 := by
  unfold stop
  split
  · rename_i hr
    exact .quit hr (.inr rfl)
  · rename_i hr
    exact .rest hr

end Course

/-! ## Scripts -/

namespace ScriptRun

/-- What the history of a run has on record. -/
inductive Mark where
  | begun
  | skipped (pc : Nat)
  | entered (pc : Nat) (task : Option TaskId)
  | left (pc : Nat)
  | heard (e : Event)
deriving DecidableEq

/-- The run once it has begun. -/
def beginning (r : ScriptRun) : ScriptRun := { r with toCourse := r.toCourse.begin, pc := 0 }

/-- The run in no step. -/
def vacant (r : ScriptRun) : ScriptRun := { r with step := none }

/-- The run once its active instruction is left. -/
def leaving (r : ScriptRun) (label : String) (step : ActiveStep) (via : Bool) : ScriptRun :=
  { r with
    step := none
    path := r.path ++ [Step.advanced r.pc label (step.task.map Handle.id) via]
    viaFailure := r.viaFailure || via
    last := if step.task.isSome then some (step.focus r.last) else r.last
    pc := r.pc + 1 }

/-- What may come next in the run of a script when so much is recorded, and the marks that it leaves. -/
inductive Pace (log : Log) (root : TaskId) (r : ScriptRun) : List Mark → ScriptRun → Prop where
  /-- What may come next in any course. -/
  | course {c : Course} : r.toCourse.Pace log root c → Pace log root r [] { r with toCourse := c }
  | begin : r.status ≠ .running → Pace log root r [.begun] r.beginning
  /-- A step that lost its task is given up, to be entered again. -/
  | vacate : r.replaced = true ∨ r.step = none → Pace log root r [] r.vacant
  | prepare : r.status = .running → r.step = none →
    Pace log root r [] r.entering
  | skip {i : Instruction} : r.status = .running → r.step = none →
    r.script.instructions[r.pc]? = some i →
    Pace log root r [.skipped r.pc]
      { r with path := r.path ++ [.skipped r.pc i.label], pc := r.pc + 1 }
  | enter {i : Instruction} {task : Option Handle} : r.status = .running → r.step = none →
    r.memo = .empty → r.script.instructions[r.pc]? = some i → task.isSome = i.source.isSome →
    Pace log root r [.entered r.pc (task.map Handle.id)]
      { r with step := some ⟨r.key i.label, task, log.cursor⟩ }
  | leave {i : Instruction} {step : ActiveStep} : r.status = .running → r.step = some step →
    r.replaced = false → r.script.instructions[r.pc]? = some i →
    Pace log root r [.left r.pc] (r.leaving i.label step (Course.passedFailure step log))
  | finish : r.status = .running → r.script.instructions.length ≤ r.pc →
    Pace log root r [] { r with step := none, status := .finished }

/-- The completion of a run that is finished. -/
def completion (r : ScriptRun) : Completion :=
  ⟨r.script.name, .scriptEnd r.script.instructions.length, r.kind, r.path⟩

end ScriptRun

/-! ## Machines -/

namespace MachineRun

/-- The state that the run is in, as it is declared. -/
def active? (r : MachineRun) : Option State := r.state.bind r.machine.state?

/-- The run once it has begun. -/
def beginning (r : MachineRun) : MachineRun := { r with toCourse := r.toCourse.begin, state := none }

/-- The run once a transition was taken out of its state. -/
def crossing (r : MachineRun) (state : State) (position : Nat) (t : Transition)
    (step : ActiveStep) (via : Bool) : MachineRun :=
  { r with
    step := none
    path := r.path ++ [Step.transition state.id t.target position via]
    viaFailure := via
    last := if step.task.isSome then some (step.focus r.last) else r.last }

/-- The run as it enters a state. -/
def reaching (r : MachineRun) (id : String) : MachineRun :=
  { r with toCourse := { r.toCourse.enterStep with step := none }, state := some id }

/-- The run as it comes to a state, which it enters if the state is declared. -/
def arriving (r : MachineRun) (id : String) : MachineRun :=
  if (r.machine.state? id).isSome then r.reaching id else { r with step := none, status := .failed }

/-- What may come next in the run of a machine when so much is recorded. -/
inductive Pace (log : Log) (root : TaskId) (r : MachineRun) : MachineRun → Prop where
  /-- What may come next in any course. -/
  | course {c : Course} : r.toCourse.Pace log root c → Pace log root r { r with toCourse := c }
  | begin : r.status ≠ .running → Pace log root r (r.beginning.arriving r.machine.initial)
  /-- A state that lost its task is entered again. -/
  | reenter {id : String} : r.status = .running → r.replaced = true ∨ r.step = none →
    r.state = some id → Pace log root r (r.arriving id)
  | settle {id : String} {task : Option Handle} : r.status = .running → r.step = none →
    r.memo = .empty → r.state = some id →
    Pace log root r { r with step := some ⟨r.key id, task, log.cursor⟩ }
  | cross {state : State} {step : ActiveStep} {position : Nat} {t : Transition} :
    r.status = .running → r.step = some step → r.replaced = false → r.active? = some state →
    state.transitions[position]? = some t →
    Pace log root r
      ((r.crossing state position t step (Course.passedFailure step log)).arriving t.target)
  | finish {state : State} : r.status = .running → r.active? = some state →
    state.terminal = true → Pace log root r { r with step := none, status := .finished }

/-- The completion of a run that is finished in a state. -/
def completion? (r : MachineRun) : Option Completion :=
  r.state.map fun id => ⟨r.machine.name, .state id, r.kind, r.path⟩

variable {log : Log} {root : TaskId} {r r' : MachineRun}

theorem arriving_declared {id : String} (h : (r.machine.state? id).isSome = true) :
    r.arriving id = r.reaching id :=
  if_pos h

theorem arriving_step (r : MachineRun) (id : String) : (r.arriving id).step = none := by
  unfold arriving
  split <;> rfl

theorem Pace.machine_eq (h : r.Pace log root r') : r'.machine = r.machine := by
  cases h with
  | begin | reenter | cross =>
    unfold arriving
    split <;> rfl
  | course | settle | finish => rfl

/-- The active state goes by the name that the run has for it. -/
theorem state_of_active {state : State} (h : r.active? = some state) :
    r.state = some state.id ∧ r.machine.state? state.id = some state := by
  obtain ⟨id, hid, hstate⟩ := Option.bind_eq_some_iff.mp h
  obtain rfl : state.id = id := by simpa using List.find?_some hstate
  exact ⟨hid, hstate⟩

end MachineRun

/-! ## Engines -/

namespace Engine

/-- What may come next in a run when so much is recorded. -/
inductive Pace (log : Log) (root : TaskId) : Engine → Engine → Prop where
  | script {r r' : ScriptRun} {marks : List ScriptRun.Mark} : r.Pace log root marks r' →
    Pace log root (.script r) (.script r')
  | machine {r r' : MachineRun} : r.Pace log root r' → Pace log root (.machine r) (.machine r')

/-- From one run to the other by paces. -/
def Paces (log : Log) (root : TaskId) : Engine → Engine → Prop :=
  Relation.ReflTransGen (Pace log root)

/-- The completion of a run that is finished. -/
def completion? : Engine → Option Completion
  | script r => some r.completion
  | machine r => r.completion?

/-- What an engine runs. -/
def model : Engine → Model
  | script r => .script r.script
  | machine r => .machine r.machine

/-- An act takes an engine to another one by paces, and reports its completion if it finishes it. -/
structure Goes (log : Log) (root : TaskId) (e : Engine) (p : Progress) (e' : Engine) : Prop where
  paces : e.Paces log root e'
  reports : ∀ completion, p = .finished completion →
    e'.status = .finished ∧ e'.completion? = some completion

variable {log : Log} {root : TaskId} {e e' e₁ : Engine} {p : Progress} {c : Course}

theorem Pace.paces (h : e.Pace log root e') : e.Paces log root e' := .single h

theorem Pace.course (h : e.course.Pace log root c) : e.Pace log root (e.withCourse c) := by
  cases e with
  | script r => exact .script (.course h)
  | machine r => exact .machine (.course h)

theorem Pace.model_eq (h : e.Pace log root e') : e'.model = e.model := by
  cases h with
  | script h => cases h <;> rfl
  | machine h => exact congrArg Model.machine h.machine_eq

theorem Paces.model_eq (h : e.Paces log root e') : e'.model = e.model := by
  induction h with
  | refl => rfl
  | tail _ hpace ih => exact hpace.model_eq.trans ih

theorem stop_paces (e : Engine) (s : Stage) : e.Paces log root (e.stop s).1 :=
  (Pace.course (e.course.stop_pace s)).paces

theorem retireCurrent_paces (e : Engine) (s : Stage) : e.Paces log root (e.retireCurrent s).1 := by
  show e.Paces log root (e.withCourse (e.course.retireCurrent s).1)
  obtain hsame | hpace := e.course.retireCurrent_pace s
  · rw [hsame]
    cases e <;> exact .refl
  · exact (Pace.course hpace).paces

namespace Goes

/-- An act that does not finish the run. -/
theorem of_paces (h : e.Paces log root e') (hp : ∀ completion, p ≠ .finished completion) :
    e.Goes log root p e' :=
  ⟨h, fun completion hc => absurd hc (hp completion)⟩

theorem stays (e : Engine) (log : Log) (root : TaskId) : e.Goes log root .waiting e :=
  of_paces .refl fun _ => Progress.noConfusion

theorem after (h : e₁.Goes log root p e') (hp : e.Paces log root e₁) : e.Goes log root p e' :=
  ⟨hp.trans h.paces, h.reports⟩

/-- A run that fails comes to its end. -/
theorem fails {error : Error} (h : e.status = .running) :
    e.Goes log root (.failed error)
      (e.withCourse { e.course with step := none, status := .failed }) :=
  of_paces (Pace.course (.quit h (.inl rfl))).paces fun _ => Progress.noConfusion

end Goes

end Engine

end Conductor
