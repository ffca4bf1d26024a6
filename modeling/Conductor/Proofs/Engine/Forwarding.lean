import Conductor.Proofs.Engine.Moves
import Conductor.Proofs.Stage.Silent

/-!
Forwarding. A machine in a state with a task of its own emits on the root what the state forwards of
an event of that task, in order, before it looks for a transition. However it goes on after a fault,
it emits nothing.
-/

namespace Conductor

namespace Plan

/-- The events that are emitted on a task, in order, with a common payload. -/
def emitAll (p : Plan) (task : TaskId) (payload : Option Value) : List EventName → Plan
  | [] => p
  | event :: rest =>
    emitAll ({ p with emitted := (task, event) :: p.emitted }.observe ⟨task, event, payload⟩) task
      payload rest

theorem emitAll_emitted (p : Plan) (task : TaskId) (payload : Option Value)
    (events : List EventName) :
    (p.emitAll task payload events).emitted = (events.map (task, ·)).reverse ++ p.emitted := by
  induction events generalizing p with
  | nil => rfl
  | cons event rest ih =>
    rw [emitAll, ih]
    simp [observe, record, send]

theorem emitAll_outbox (p : Plan) (task : TaskId) (payload : Option Value)
    (events : List EventName) :
    (p.emitAll task payload events).outbox =
      p.outbox ++ events.map fun event => .event ⟨task, event, payload⟩ := by
  induction events generalizing p with
  | nil => simp [emitAll]
  | cons event rest ih =>
    rw [emitAll, ih]
    simp [observe, record, send]

end Plan

/-- The names under which an event is forwarded, in order. -/
def Event.namesAs (e : Event) (forwards : List Forward) : List EventName :=
  (forwards.filter fun f => f.event = e.name).map Forward.emitted

namespace MachineRun

variable {r : MachineRun} {state : State} {t : Handle} {e : Event} {s : Stage}

/-- A running machine is in a state with a task of its own, which was not taken away. -/
structure Occupies (r : MachineRun) (state : State) (task : Handle) : Prop where
  running : r.status = .running
  entered : r.state.bind r.machine.state? = some state
  own : r.task? = some task
  kept : r.replaced = false

theorem contains_observe {p : Plan} {task : TaskId} (h : p.tasks.contains task = true)
    (e : Event) : (p.observe e).tasks.contains task = true := by
  rw [Dict.contains_eq_isSome] at h ⊢
  have hget : (p.observe e).tasks = p.tasks.modify e.task fun t =>
    { t with state := Plan.next t.state e.name } := rfl
  rw [hget, Dict.get?_modify]
  split
  · rw [Option.isSome_map]
    exact h
  · exact h

/-- A root that the plan knows is told of everything that is forwarded. -/
theorem forward_eq (forwards : List Forward) (h : s.plan.tasks.contains s.root = true) :
    forward e forwards s =
      (.ok (), { s with plan := s.plan.emitAll s.root e.payload (e.namesAs forwards) }) := by
  induction forwards generalizing s with
  | nil => rfl
  | cons f rest ih =>
    unfold Event.namesAs at ih ⊢
    simp only [forward]
    split
    · rename_i hf
      simp only [Stage.emitOnRoot, Plan.emit, h, if_true]
      rw [ih (contains_observe h _), List.filter_cons_of_pos (by simpa using hf)]
      rfl
    · rename_i hf
      rw [ih h, List.filter_cons_of_neg (by simpa using hf)]

/-- In a state with a task, an event of the task is forwarded before the state is checked. -/
theorem onEvent_eq (hr : r.Occupies state t) (he : e.task = t.id)
    (h : s.plan.tasks.contains s.root = true) :
    r.onEvent e s = r.check state
      { s with plan := s.plan.emitAll s.root e.payload (e.namesAs state.forwards) } := by
  unfold onEvent
  simp only [hr.running, hr.kept, hr.entered, hr.own, he]
  simp [forward_eq state.forwards h]

/-- However a machine goes on after a suspension, it emits nothing. -/
theorem resume_silent (hr : r.RunsIn .model) (hcat : s.catalog.Modest) :
    s.plan.Silent ((Engine.machine r).resume s).2.2.plan :=
  (resume_calms hr (Eq.refl (r.resume s))).1.silent hcat

theorem restart_silent (hr : r.RunsIn .model) (hcat : s.catalog.Modest) :
    s.plan.Silent ((Engine.machine r).restart s).2.2.plan := by
  obtain ⟨hstop, hstopped⟩ : s.Calms .model false (r.toCourse.stop s).2 ∧
      Course.RunsIn .model (r.toCourse.stop s).1 := Course.stop_calms hr rfl
  have hkept := (Stage.Kept.moves hstop.moves).catalog
  simp only [Engine.restart, Engine.stop, Engine.withCourse, Engine.course, Engine.start]
  generalize hreset : ({ (r.toCourse.stop s).2 with
    scopes := (r.toCourse.stop s).2.scopes.reset (r.toCourse.stop s).1.depth } : Stage) = t
  have ht : s.plan.Silent t.plan := by
    rw [← hreset]
    exact hstop.silent hcat
  cases hstart : start { r with toCourse := (r.toCourse.stop s).1 } t with
  | error error => exact ht
  | ok result =>
    refine ht.trans ((start_calms hstopped hstart).1.silent ?_)
    rw [← hreset]
    show (r.toCourse.stop s).2.catalog.Modest
    rw [hkept]
    exact hcat

end MachineRun

end Conductor
