import Conductor.Proofs.Session.Calls
import Conductor.Proofs.Session.Deliveries

/-!
Suspension: what becomes of the normal model while a handler runs. An event that the handler takes
without coming to its end changes nothing of the session but the engine of that handler. When the
handler finishes and no fault waits, the model goes on as the response says.
-/

namespace Conductor

namespace Scene

/-- An event leaves a session under way: it is not the end of the root task. -/
def Survives (c : Scene) (e : Event) : Prop :=
  c.session.isRunning = true ∧ ¬ (e.task = c.session.root.id ∧ e.name.isTerminal = true)

/-- The active handler hears of an event and does not come to its end. -/
def Absorbs (c : Scene) (e : Event) : Prop :=
  c.Survives e ∧ ∃ active, c.session.faults.active = some active ∧
    (active.engine.onEvent e (c.hear e).stage).1.isTerminal = false

/-- The active handler absorbs events in turn. -/
def AbsorbsAll (c : Scene) : List Event → Prop
  | [] => True
  | e :: rest => c.Absorbs e ∧ AbsorbsAll (c.deliver (.event e)).2 rest

/-- The active handler hears of an event and finishes. -/
def Finishes (c : Scene) (e : Event) : Prop :=
  c.Survives e ∧ ∃ active completion, c.session.faults.active = some active ∧
    (active.engine.onEvent e (c.hear e).stage).1 = .finished completion

/-- The scene after events were delivered in turn. -/
def hearing (c : Scene) (events : List Event) : Scene :=
  c.after (events.map fun e => .deliver (.event e))

/-- The scene in which the active handler has heard of an event. -/
def heeded (c : Scene) (active : ActiveHandler) (e : Event) : Scene :=
  (c.hear e).withHandler active (active.engine.onEvent e (c.hear e).stage).2.1
    (active.engine.onEvent e (c.hear e).stage).2.2

variable {c d : Scene} {e : Event}

theorem hearing_cons (c : Scene) (e : Event) (rest : List Event) :
    c.hearing (e :: rest) = (c.deliver (.event e)).2.hearing rest :=
  rfl

theorem Survives.deliver {active : ActiveHandler} (h : c.Survives e)
    (ha : c.session.faults.active = some active) :
    c.deliver (.event e) = (c.heeded active e).settleHandler
      { active with engine := (active.engine.onEvent e (c.hear e).stage).2.1 }
      (active.engine.onEvent e (c.hear e).stage).1 :=
  handleEvent_handler h.1 ha h.2 rfl

/-- What a handler absorbs is its own affair. -/
theorem Absorbs.deliver (h : c.Absorbs e) : ∃ active, c.session.faults.active = some active ∧
    (c.deliver (.event e)).2 = c.heeded active e := by
  obtain ⟨hsurvives, active, ha, hp⟩ := h
  refine ⟨active, ha, ?_⟩
  rw [hsurvives.deliver ha]
  cases hprogress : (active.engine.onEvent e (c.hear e).stage).1 with
  | waiting | advanced => rfl
  | finished completion | failed error =>
    rw [hprogress] at hp
    cases hp

/-- Where no fault waits, a handler that finishes lets the model go on, and that is all. -/
theorem Survives.deliver_finished {active : ActiveHandler} {completion : Completion}
    (h : c.Survives e) (ha : c.session.faults.active = some active)
    (hfinished : (active.engine.onEvent e (c.hear e).stage).1 = .finished completion)
    (hp : c.session.faults.pending = []) :
    (c.deliver (.event e)).2 = ((c.heeded active e).resolve
      { active with engine := (active.engine.onEvent e (c.hear e).stage).2.1 } completion).2 := by
  rw [h.deliver ha, hfinished]
  simp only [settleHandler]
  generalize hres : (c.heeded active e).resolve _ completion = result
  have hpending : result.2.session.isRunning = true → result.2.session.faults.pending = [] := by
    rw [← hres]
    intro hrunning
    rw [resolve_pending hrunning]
    exact hp
  cases hrunning : result.2.session.isRunning with
  | true => simp only [hpending hrunning, drain]
  | false =>
    cases result.2.session.faults.pending with
    | nil => simp only [drain]
    | cons f rest => simp [drain, hrunning]

/-- From one scene to the other a handler was active, and only its engine made any difference. -/
structure Suspended (c d : Scene) : Prop where
  engine : d.session.engine = c.session.engine
  status : d.session.status = c.session.status
  faults : ∃ active engine, c.session.faults.active = some active ∧
    d.session.faults = { c.session.faults with active := some { active with engine } }

namespace Suspended

theorem refl {active : ActiveHandler} (h : c.session.faults.active = some active) :
    c.Suspended c := by
  refine ⟨rfl, rfl, active, active.engine, h, ?_⟩
  rw [← h]

theorem absorb (h : c.Suspended d) (he : d.Absorbs e) :
    c.Suspended (d.deliver (.event e)).2 := by
  obtain ⟨active, engine, ha, hf⟩ := h.faults
  obtain ⟨active', ha', hdeliver⟩ := he.deliver
  rw [hdeliver]
  refine ⟨h.engine, h.status, active,
    (active'.engine.onEvent e (d.hear e).stage).2.1, ha, ?_⟩
  have hactive : { active with engine } = active' := by
    rw [hf] at ha'
    exact Option.some.inj ha'
  rw [← hactive]
  show Dispatch.mk d.session.faults.tables _ d.session.faults.pending d.session.faults.limit
    d.session.faults.refused = _
  rw [hf]

theorem hearing {events : List Event} (h : c.Suspended d) (he : d.AbsorbsAll events) :
    c.Suspended (d.hearing events) := by
  induction events generalizing d with
  | nil => exact h
  | cons e rest ih =>
    rw [hearing_cons]
    exact ih (h.absorb he.1) he.2

theorem pending (h : c.Suspended d) : d.session.faults.pending = c.session.faults.pending := by
  obtain ⟨_, _, _, hf⟩ := h.faults
  rw [hf]

theorem tables (h : c.Suspended d) : d.session.faults.tables = c.session.faults.tables := by
  obtain ⟨_, _, _, hf⟩ := h.faults
  rw [hf]

/-- The handler is of the same response. -/
theorem active {first second : ActiveHandler} (h : c.Suspended d)
    (hc : c.session.faults.active = some first) (hd : d.session.faults.active = some second) :
    second.table = first.table ∧ second.entry = first.entry := by
  obtain ⟨active, engine, ha, hf⟩ := h.faults
  rw [hf] at hd
  cases hc.symm.trans ha
  cases hd
  exact ⟨rfl, rfl⟩

end Suspended

end Scene

end Conductor
