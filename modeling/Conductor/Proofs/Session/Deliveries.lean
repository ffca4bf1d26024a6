import Conductor.Proofs.Session.Turns

/-!
Deliveries, case by case: what routing a fault and hearing of an event come to, and how what is
reported of them shows in the scene.
-/

namespace Conductor

namespace Scene

variable {c : Scene} {f : Fault}

/-- A delivery is counted. -/
def counted (c : Scene) : Scene :=
  c.map fun session => { session with deliveries := session.deliveries + 1 }

/-- The scene in which a fault has displaced the active handler. -/
def vacated (c : Scene) : Scene := c.counted.abandonHandler.2.recordDropped c.counted.abandonHandler.1

/-- Routing a fault goes by the decision about it. -/
theorem route_eq (c : Scene) (f : Fault) : c.route f =
    match c.session.faults.decide f (c.session.inReach f) with
    | .unhandled => (.unhandled, c.counted.record (.fault f .unhandled none))
    | .queue => (.queued, c.counted.enqueue f)
    | .preempt target => (.handled (c.vacated.handle target f .preempted).1,
      (c.vacated.handle target f .preempted).2)
    | .activate target => (.handled (c.counted.handle target f .triggered).1,
      (c.counted.handle target f .triggered).2) := by
  unfold route
  rfl

theorem handleFault_idle (h : c.session.isRunning = false) (f : Fault) :
    c.handleFault f = (.ignored, c) := by
  unfold handleFault
  simp [h]

theorem handleFault_eq (hr : c.session.isRunning = true) (f : Fault) : c.handleFault f =
    match c.session.faults.decide f (c.session.inReach f) with
    | .unhandled => (.faultUnhandled, c.counted.record (.fault f .unhandled none))
    | .queue => (.faultQueued, c.counted.enqueue f)
    | .preempt target => (c.vacated.handle target f .preempted).2.conclude
      (c.vacated.handle target f .preempted).1
    | .activate target => (c.counted.handle target f .triggered).2.conclude
      (c.counted.handle target f .triggered).1 := by
  unfold handleFault
  rw [if_neg (by simp [hr]), route_eq]
  cases c.session.faults.decide f (c.session.inReach f) <;> rfl

theorem enqueue_faults (c : Scene) (f : Fault) :
    (c.counted.enqueue f).session.faults = (c.session.faults.enqueue f).2 := by
  obtain ⟨trail, he⟩ := c.counted.enqueue_eq f
  rw [he]
  rfl

theorem enqueue_active (c : Scene) (f : Fault) :
    (c.counted.enqueue f).session.faults.active = c.session.faults.active := by
  obtain ⟨pending, hp⟩ := c.session.faults.enqueue_eq f
  rw [enqueue_faults, hp]

theorem enqueue_status (c : Scene) (f : Fault) :
    (c.counted.enqueue f).session.status = c.session.status := by
  obtain ⟨trail, he⟩ := c.counted.enqueue_eq f
  rw [he]
  rfl

/-! ## Reports -/

theorem settleModel_terminal {p : Progress} (h : (c.settleModel p).1.isTerminal = true) :
    (c.settleModel p).2.session.status.isTerminal = true := by
  cases p with
  | waiting | advanced => cases h
  | finished completion => exact succeed_terminal c completion
  | failed error => exact fail_terminal c error

/-- What became of a fault, as it shows in the scene: a handler that was started runs, a fault that
was lost has ended the session, and so has a model that came to its end when it went on. -/
def Handling.Shown (c : Scene) : Handling → Prop
  | .started _ => c.session.faults.active.isSome = true
  | .lost _ => c.session.status.isTerminal = true
  | .resolved _ model => model.isTerminal = true → c.session.status.isTerminal = true

theorem engage_shown (fuel : Nat) (c : Scene) (target : Target) (f : Fault) (d : Disposition) :
    (engage fuel c target f d).1.Shown (engage fuel c target f d).2 := by
  induction fuel generalizing c target d with
  | zero => exact exhaust_terminal c f
  | succ fuel ih =>
    cases hs : c.startHandler target f d with
    | mk p c₁ =>
      obtain ⟨_, _, active, hactive, _⟩ := startHandler_ok hs
      simp only [engage, hs, hactive]
      cases p with
      | waiting | advanced => simp [Handling.Shown, hactive]
      | finished completion =>
        simp only [Handling.Shown, resolve_eq]
        exact settleModel_terminal
      | failed error =>
        simp only
        split
        · exact ih ..
        · exact exhaust_terminal _ f

theorem route_shown {handling : Handling} {c' : Scene}
    (h : c.route f = (.handled handling, c')) : handling.Shown c' := by
  cases hd : c.session.faults.decide f (c.session.inReach f) with
  | unhandled | queue =>
    rw [route_eq, hd] at h
    cases h
  | preempt target | activate target =>
    rw [route_eq, hd] at h
    cases h
    exact engage_shown ..

theorem running_of_drain {faults : List Fault} {outcome : Outcome}
    (h : (drain faults outcome c).2.session.isRunning = true) : c.session.isRunning = true := by
  cases faults with
  | nil => exact h
  | cons f rest =>
    simp only [drain] at h
    split at h
    · rename_i hfree
      exact (Bool.and_eq_true_iff.mp hfree).1
    · exact h

theorem conclude_resolved (c : Scene) (response : String) (model : Outcome) :
    (c.conclude (.resolved response model)).2 = (drain c.session.faults.pending model c).2 := by
  simp only [conclude]
  split
  · rename_i h
    rw [h]
  · rename_i h
    rw [h]
  · rename_i h
    rw [h]

theorem running_of_conclude {handling : Handling}
    (h : (c.conclude handling).2.session.isRunning = true) : c.session.isRunning = true := by
  cases handling with
  | started response => exact h
  | lost outcome => exact h
  | resolved response model =>
    rw [conclude_resolved] at h
    exact running_of_drain h

/-! ## What routing keeps

Apart from routing, a turn of the faults that wait changes nothing but the queue, so a condition on
scenes that does not depend on the queue need only be shown to outlast routing. -/

section Keeping

variable {Holds : Scene → Prop}
  (hpending : ∀ {c : Scene} (faults), Holds c → Holds (c.withPending faults))
  (hroute : ∀ {c : Scene} (f), Holds c → Holds (c.route f).2)

include hpending hroute

theorem drain_keeps (h : Holds c) (faults : List Fault) (outcome : Outcome) :
    Holds (drain faults outcome c).2 := by
  induction faults generalizing c outcome with
  | nil => exact h
  | cons f rest ih =>
    have hrouted : ∀ {routing c'}, (c.withPending rest).route f = (routing, c') → Holds c' := by
      rintro routing c' hc
      obtain rfl : ((c.withPending rest).route f).2 = c' := congrArg Prod.snd hc
      exact hroute f (hpending rest h)
    simp only [drain]
    split
    · split
      · rename_i hc
        exact hrouted hc
      · rename_i hc
        exact hrouted hc
      · rename_i hc
        split
        · exact hrouted hc
        · exact ih (hrouted hc) outcome
      · rename_i hc
        exact ih (hrouted hc) outcome
    · exact h

theorem conclude_keeps (h : Holds c) (handling : Handling) : Holds (c.conclude handling).2 := by
  cases handling with
  | started response => exact h
  | lost outcome => exact h
  | resolved response model =>
    rw [conclude_resolved]
    exact drain_keeps hpending hroute h _ model

theorem handleFault_keeps (h : Holds c) (f : Fault) : Holds (c.handleFault f).2 := by
  have hrouted := hroute f h
  unfold handleFault
  split
  · exact h
  · split
    · rename_i hc
      rw [hc] at hrouted
      exact hrouted
    · rename_i hc
      rw [hc] at hrouted
      exact hrouted
    · rename_i handling c' hc
      rw [hc] at hrouted
      exact conclude_keeps hpending hroute hrouted handling

end Keeping

/-- A handler that goes on from its start takes the place that it was meant for. -/
theorem handle_started {target : Target} {d : Disposition}
    (h : (c.startHandler target f d).1.isTerminal = false) :
    ((c.handle target f d).2.conclude (c.handle target f d).1).2 =
      (c.startHandler target f d).2 := by
  unfold handle
  cases hs : c.startHandler target f d with
  | mk p c₁ =>
    rw [hs] at h
    cases p with
    | waiting | advanced => simp only [engage, hs, conclude]
    | finished completion | failed error => cases h

/-! ## Events -/

variable {e : Event}

theorem handleEvent_idle (h : c.session.isRunning = false) (e : Event) :
    c.handleEvent e = (.ignored, c) := by
  unfold handleEvent
  simp [h]

/-- The end of the root task ends the session. -/
theorem handleEvent_root (hr : c.session.isRunning = true)
    (he : e.task = c.session.root.id ∧ e.name.isTerminal = true) :
    c.handleEvent e = (c.hear e).halt "root task ended" := by
  unfold handleEvent
  rw [if_neg (by simp [hr])]
  extract_lets heard
  have he' : e.task = heard.session.root.id ∧ e.name.isTerminal = true := he
  rw [if_pos he']
  rfl

/-- While no handler runs, the normal model reacts. -/
theorem handleEvent_model (hr : c.session.isRunning = true)
    (ha : c.session.faults.active = none)
    (he : ¬ (e.task = c.session.root.id ∧ e.name.isTerminal = true)) {p : Progress}
    {engine : Engine} {s : Stage}
    (h : c.session.engine.onEvent e (c.hear e).stage = (p, engine, s)) :
    c.handleEvent e = ((c.hear e).withEngine engine s).settleModel p := by
  unfold handleEvent
  rw [if_neg (by simp [hr])]
  extract_lets heard
  have he' : ¬ (e.task = heard.session.root.id ∧ e.name.isTerminal = true) := he
  have ha' : heard.session.faults.active = none := ha
  have h' : heard.session.engine.onEvent e heard.stage = (p, engine, s) := h
  rw [if_neg he']
  simp only [ha', runModel, h']
  rfl

/-- While a handler runs, it alone reacts. -/
theorem handleEvent_handler {active : ActiveHandler} (hr : c.session.isRunning = true)
    (ha : c.session.faults.active = some active)
    (he : ¬ (e.task = c.session.root.id ∧ e.name.isTerminal = true)) {p : Progress}
    {engine : Engine} {s : Stage}
    (h : active.engine.onEvent e (c.hear e).stage = (p, engine, s)) :
    c.handleEvent e =
      ((c.hear e).withHandler active engine s).settleHandler { active with engine } p := by
  unfold handleEvent
  rw [if_neg (by simp [hr])]
  extract_lets heard
  have he' : ¬ (e.task = heard.session.root.id ∧ e.name.isTerminal = true) := he
  have ha' : heard.session.faults.active = some active := ha
  have h' : active.engine.onEvent e heard.stage = (p, engine, s) := h
  rw [if_neg he']
  simp only [ha', h']
  rfl

end Scene

end Conductor
