import Conductor.Proofs.Session.Forwards
import Conductor.Proofs.Stage.Requests

/-!
What a session does to its plan and to whoever counts its interests. Starting, telling and stopping
a session only asks the plan. The changes that the session notes lead from what was known of its
interests to what they are now, and a session that does not run waits for nothing.
-/

namespace Conductor

namespace Scene

variable {c c' : Scene}

/-! ## Identity -/

theorem abandonHandler_id (c : Scene) : c.abandonHandler.2.session.id = c.session.id := by
  unfold abandonHandler
  split <;> rfl

theorem retireEverything_id (c : Scene) : c.retireEverything.session.id = c.session.id := by
  rw [retireEverything_eq, withEngine_id]
  exact abandonHandler_id c

theorem closing_id {g : Session → Session} (hg : Closing g) (h : c' = c.retireEverything.map g) :
    c'.session.id = c.session.id := by
  rw [h]
  simp only [map, hg.id]
  exact retireEverything_id c

theorem turn_id {m m' : Moment} (ht : Turn m m') :
    m'.scene.session.id = m.scene.session.id := by
  cases ht with
  | begin | cancel | hear | count | model | handler | unhandled | draw | trigger | install
  | resolve | escalate => rfl
  | @queue c f =>
    obtain ⟨trail, he⟩ := c.enqueue_eq f
    show (c.enqueue f).session.id = _
    rw [he]
    rfl
  | displace => exact abandonHandler_id _
  | @exhaust c f =>
    obtain ⟨g, hg, he⟩ := fail_eq (c.giveUp f) .escalationExhausted
    exact closing_id (c := c.giveUp f) hg he
  | succeed completion =>
    obtain ⟨g, hg, he⟩ := succeed_eq _ completion
    exact closing_id hg he
  | fail error =>
    obtain ⟨g, hg, he⟩ := fail_eq _ error
    exact closing_id hg he
  | halt reason =>
    obtain ⟨g, hg, he⟩ := halt_eq _ reason
    exact closing_id hg he

theorem call_id (hs : c.Sound) (call : Call) : (c.call call).session.id = c.session.id := by
  refine (call_preserves (P := fun d => d.session.id = c.session.id)
    (fun _ _ ht _ h => (turn_id ht).trans h) hs call (fun command _ _ => ?_) rfl).1
  rw [drive_session]

/-! ## Requests -/

theorem abandonHandler_asked (hs : c.Sound) (hcat : c.session.core.catalog.Civil) :
    c.plan.Asked c.abandonHandler.2.plan := by
  unfold abandonHandler
  split
  · exact .refl _
  · rename_i active ha
    exact (Engine.stop_calms (hs.handler active ha) c.stage).1.moves.asked hcat

theorem closing_asked (hs : c.Sound) (hcat : c.session.core.catalog.Civil) {g : Session → Session}
    (h : c' = c.retireEverything.map g) : c.plan.Asked c'.plan := by
  have hstop := (Engine.stop_calms hs.cleared c.cleared.stage).1.moves
  have hcat' : c.cleared.stage.catalog.Civil := (abandonHandler_catalog hs) ▸ hcat
  rw [h, map_plan, retireEverything_eq, withEngine_plan]
  exact ((abandonHandler_asked hs hcat).trans (hstop.asked hcat')).trans (Stage.retireAll_asked _)

theorem turn_asked {m m' : Moment} (ht : Turn m m') (hs : m.scene.Sound)
    (hcat : m.scene.session.core.catalog.Civil) : m.scene.plan.Asked m'.scene.plan := by
  cases ht with
  | begin | cancel | hear | count | unhandled | draw | trigger | install | resolve | escalate =>
    exact .refl _
  | model hr ha hact => exact (hact.moves hs.model).1.asked hcat
  | handler hr ha hact => exact (hact.moves (hs.handler _ ha)).1.asked hcat
  | @queue c f =>
    obtain ⟨trail, he⟩ := c.enqueue_eq f
    show c.plan.Asked (c.enqueue f).plan
    rw [he]
    exact .refl _
  | displace => exact abandonHandler_asked hs hcat
  | @exhaust c f =>
    obtain ⟨g, _, he⟩ := fail_eq (c.giveUp f) .escalationExhausted
    have hgiven : (c.giveUp f).Sound := hs.of_same rfl rfl id
    exact closing_asked (c := c.giveUp f) hgiven hcat he
  | succeed completion =>
    obtain ⟨g, _, he⟩ := succeed_eq _ completion
    exact closing_asked hs hcat he
  | fail error =>
    obtain ⟨g, _, he⟩ := fail_eq _ error
    exact closing_asked hs hcat he
  | halt reason =>
    obtain ⟨g, _, he⟩ := halt_eq _ reason
    exact closing_asked hs hcat he

/-- Calls on the session itself only ask the plan. -/
theorem call_asked (hs : c.Sound) (hcat : c.session.core.catalog.Civil) {call : Call}
    (hcall : ∀ command, call ≠ .drive command) : c.plan.Asked (c.call call).plan := by
  refine (call_preserves (P := fun d => d.session.core.catalog.Civil ∧ c.plan.Asked d.plan)
    (fun _ _ ht hs h => ?_) hs call (fun command he _ => absurd he (hcall command))
    ⟨hcat, .refl _⟩).1.2
  obtain ⟨hcat, hasked⟩ := h
  exact ⟨(turn_catalog ht hs) ▸ hcat, hasked.trans (turn_asked ht hs hcat)⟩

/-! ## Interests -/

/-- The changes that a session noted lead from what is known to what it waits for, which is nothing
unless it runs. -/
structure Tells (known : Interest → Bool) (c : Scene) : Prop where
  told : c.stage.Tells known
  quiet : c.session.isRunning = false → ∀ p, c.session.core.interests.covers p = false

namespace Tells

variable {known : Interest → Bool}

theorem of_same (h : c.Tells known) (hi : c'.session.core.interests = c.session.core.interests)
    (hr : c'.session.isRunning = false → c.session.isRunning = false) : c'.Tells known where
  told := h.told.of_same hi
  quiet := by
    rw [hi]
    exact fun hn => h.quiet (hr hn)

theorem of_running (hr : c.session.isRunning = true) (h : c.stage.Tells known) : c.Tells known :=
  ⟨h, fun hn => absurd (hr.symm.trans hn) (by simp)⟩

theorem abandonHandler (h : c.stage.Tells known) (hs : c.Sound) :
    c.abandonHandler.2.stage.Tells known := by
  unfold Scene.abandonHandler
  split
  · exact h
  · rename_i active ha
    have hstopped := h.moves (Engine.stop_calms (hs.handler active ha) c.stage).1.moves
    exact hstopped

theorem closing (h : c.Tells known) (hs : c.Sound) {g : Session → Session} (hg : Closing g)
    (hc : c' = c.retireEverything.map g) : c'.Tells known := by
  have hstop := (Engine.stop_calms hs.cleared c.cleared.stage).1.moves
  have hcleared : c.cleared.stage.Tells known := abandonHandler h.told hs
  have hretired := (hcleared.moves hstop).retireAll
  have hinterests : c'.session.core.interests =
      (c.cleared.session.engine.stop c.cleared.stage).2.retireAll.interests := by
    rw [hc]
    simp only [map, hg.interests, retireEverything_eq, withEngine_core]
  refine ⟨hretired.of_same hinterests, fun _ p => ?_⟩
  rw [hinterests, Stage.retireAll_interests]
  exact Interests.covers_clearAll _ p

theorem turn {m m' : Moment} (ht : Turn m m') (hs : m.scene.Sound) (h : m.scene.Tells known) :
    m'.scene.Tells known := by
  cases ht with
  | begin => exact h.of_same rfl fun hn => nomatch hn
  | cancel hcreated => exact h.of_same rfl fun _ => congrArg Status.isRunning hcreated
  | hear | count | unhandled | draw | trigger | install | resolve | escalate =>
    exact h.of_same rfl id
  | model hr ha hact => exact of_running hr (h.told.moves (hact.moves hs.model).1)
  | handler hr ha hact => exact of_running hr (h.told.moves (hact.moves (hs.handler _ ha)).1)
  | @queue c f =>
    obtain ⟨trail, he⟩ := c.enqueue_eq f
    show (c.enqueue f).Tells known
    rw [he]
    exact h.of_same rfl id
  | @displace c f active hr ha =>
    have hr' := Session.running_of_same (abandonHandler_ok ha).2.1 hr
    exact of_running hr' (abandonHandler h.told hs)
  | @exhaust c f =>
    obtain ⟨g, hg, he⟩ := fail_eq (c.giveUp f) .escalationExhausted
    have hgiven : (c.giveUp f).Tells known := h.of_same rfl id
    exact hgiven.closing (hs.of_same rfl rfl id) hg he
  | succeed completion =>
    obtain ⟨g, hg, he⟩ := succeed_eq _ completion
    exact h.closing hs hg he
  | fail error =>
    obtain ⟨g, hg, he⟩ := fail_eq _ error
    exact h.closing hs hg he
  | halt reason =>
    obtain ⟨g, hg, he⟩ := halt_eq _ reason
    exact h.closing hs hg he

theorem call (h : c.Tells known) (hs : c.Sound) (call : Call) : (c.call call).Tells known := by
  refine (call_preserves (P := fun d => d.Tells known) (fun _ _ ht hs h => h.turn ht hs) hs call
    (fun command _ h => ?_) h).1
  have hsame := c.drive_session command
  exact h.of_same (by rw [hsame]) fun hn => by rwa [hsame] at hn

end Tells

end Scene

end Conductor
