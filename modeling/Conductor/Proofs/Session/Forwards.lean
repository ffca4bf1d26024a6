import Conductor.Proofs.Engine.Forwarding
import Conductor.Proofs.Session.Suspension

/-!
What a state machine forwards. An event of the active state's own task that is delivered while no
handler runs is emitted on the root at once, as often as the state forwards it. While a handler
runs the machine takes no part in a delivery, and when it goes on it emits nothing, so what it
would have forwarded in the meantime is never emitted.
-/

namespace Conductor

namespace Scene

variable {c : Scene}

theorem abandonHandler_catalog (hs : c.Sound) :
    c.abandonHandler.2.session.core.catalog = c.session.core.catalog := by
  unfold abandonHandler
  split
  · rfl
  · rename_i active ha
    exact (Stage.Kept.moves (Engine.stop_calms (hs.handler active ha) c.stage).1.moves).catalog

theorem closing_catalog (hs : c.Sound) {c' : Scene} {g : Session → Session} (hg : Closing g)
    (h : c' = c.retireEverything.map g) : c'.session.core.catalog = c.session.core.catalog := by
  have hstop := Stage.Kept.moves (Engine.stop_calms hs.cleared c.cleared.stage).1.moves
  have hretired := (Stage.Kept.retireAll (c.cleared.session.engine.stop c.cleared.stage).2).catalog
  have hkept := (hretired.trans hstop.catalog).trans (abandonHandler_catalog hs)
  rw [h, retireEverything_eq]
  simp only [map, hg.catalog]
  generalize (c.cleared.session.engine.stop c.cleared.stage).2.retireAll = s at hkept
  exact hkept

/-- A session keeps the catalog that it was set up with. -/
theorem turn_catalog {m m' : Moment} (ht : Turn m m') (hs : m.scene.Sound) :
    m'.scene.session.core.catalog = m.scene.session.core.catalog := by
  cases ht with
  | begin | cancel | hear | count | unhandled | draw | trigger | install | resolve | escalate => rfl
  | model hr ha hact => exact (Stage.Kept.moves (hact.moves hs.model).1).catalog
  | handler hr ha hact => exact (Stage.Kept.moves (hact.moves (hs.handler _ ha)).1).catalog
  | @queue c f =>
    obtain ⟨trail, he⟩ := c.enqueue_eq f
    show (c.enqueue f).session.core.catalog = _
    rw [he]
    rfl
  | @displace c f active => exact abandonHandler_catalog hs
  | @exhaust c f =>
    obtain ⟨g, hg, he⟩ := fail_eq (c.giveUp f) .escalationExhausted
    have hgiven : (c.giveUp f).Sound := hs.of_same rfl rfl id
    exact closing_catalog hgiven hg he
  | succeed completion =>
    obtain ⟨g, hg, he⟩ := succeed_eq _ completion
    exact closing_catalog hs hg he
  | fail error =>
    obtain ⟨g, hg, he⟩ := fail_eq _ error
    exact closing_catalog hs hg he
  | halt reason =>
    obtain ⟨g, hg, he⟩ := halt_eq _ reason
    exact closing_catalog hs hg he

theorem after_catalog (hs : c.Sound) (calls : List Call) :
    (c.after calls).session.core.catalog = c.session.core.catalog := by
  refine after_preserves (P := fun d => d.session.core.catalog = c.session.core.catalog)
    (fun _ _ ht hs h => (turn_catalog ht hs).trans h) hs (fun d command _ h => ?_) rfl
  rw [drive_session]
  exact h

theorem call_catalog (hs : c.Sound) (call : Call) :
    (c.call call).session.core.catalog = c.session.core.catalog :=
  after_catalog hs [call]

theorem Sound.machine (h : c.Sound) {r : MachineRun} (hm : c.session.engine = .machine r) :
    r.RunsIn .model := by
  have hrun := h.model
  rw [hm] at hrun
  exact hrun

/-! ## Silence -/

theorem abandonHandler_silent (hs : c.Sound) (hcat : c.session.core.catalog.Modest) :
    c.plan.Silent c.abandonHandler.2.plan := by
  unfold abandonHandler
  split
  · exact .refl _
  · rename_i active ha
    exact (Engine.stop_calms (hs.handler active ha) c.stage).1.silent hcat

/-- A session that ends emits nothing. -/
theorem retireEverything_silent (hs : c.Sound) (hcat : c.session.core.catalog.Modest) :
    c.plan.Silent c.retireEverything.plan := by
  have hstop := (Engine.stop_calms hs.cleared c.cleared.stage).1
  have hcat' : c.cleared.stage.catalog.Modest := (abandonHandler_catalog hs) ▸ hcat
  rw [retireEverything_eq, withEngine_plan]
  exact ((abandonHandler_silent hs hcat).trans (hstop.silent hcat')).trans
    (Stage.retireAll_silent _)

theorem settleModel_silent (hs : c.Sound) (hcat : c.session.core.catalog.Modest) (p : Progress) :
    c.plan.Silent (c.settleModel p).2.plan := by
  obtain he | ⟨g, _, he⟩ := settleModel_eq c p
  · rw [he]
    exact .refl _
  · rw [he, map_plan]
    exact retireEverything_silent hs hcat

theorem withEngine_silent {engine : Engine} {s : Stage} (hr : c.session.isRunning = true)
    (ha : c.session.faults.active = none) (he : engine.RunsIn .model) (hcat : s.catalog.Modest)
    (p : Progress) : s.plan.Silent ((c.withEngine engine s).settleModel p).2.plan := by
  have hs : (c.withEngine engine s).Sound := .of_no_handler hr he ha
  exact settleModel_silent hs hcat p

/-- A machine goes on in silence after a fault was handled. -/
theorem resolve_silent (hs : c.Sound) (hr : c.session.isRunning = true)
    (hcat : c.session.core.catalog.Modest) {r : MachineRun} (hm : c.session.engine = .machine r)
    (active : ActiveHandler) (completion : Completion) :
    c.plan.Silent (c.resolve active completion).2.plan := by
  have hrun := hs.machine hm
  let d := c.resolved active completion
  have hact := d.resumptionOf_act active d.session.engine d.stage
  have hengine : d.session.engine = .machine r := hm
  have hstage : d.stage.catalog.Modest := hcat
  have hsilent : c.plan.Silent (d.resumptionOf active d.session.engine d.stage).2.2.plan := by
    rw [hengine]
    rcases d.resumptionOf_eq active with h | h
    · rw [h]
      exact MachineRun.restart_silent hrun hstage
    · rw [h]
      exact MachineRun.resume_silent hrun hstage
  obtain ⟨hmoves, hrun'⟩ := hact.moves hs.model
  have hcat' := (Stage.Kept.moves hmoves).catalog ▸ hcat
  rw [resolve_eq]
  exact hsilent.trans (withEngine_silent (c := d) hr (endHandler_active ..) hrun' hcat' _)

/-- An event of the task of a state that is delivered while no handler runs is forwarded at
once. -/
theorem deliver_forwards (hs : c.Sound) (hcat : c.session.core.catalog.Modest)
    (hr : c.session.isRunning = true) (ha : c.session.faults.active = none) {r : MachineRun}
    (hm : c.session.engine = .machine r) {state : State} {t : Handle} (ho : r.Occupies state t)
    (ht : t.id ≠ c.session.root.id) (hknown : c.plan.tasks.contains c.session.root.id = true)
    {e : Event} (he : e.task = t.id) :
    (c.plan.emitAll c.session.root.id e.payload (e.namesAs state.forwards)).Silent
      (c.deliver (.event e)).2.plan := by
  have hrun := hs.machine hm
  have hend : ¬ (e.task = c.session.root.id ∧ e.name.isTerminal = true) :=
    fun h => ht (he ▸ h.1)
  have hforward : r.onEvent e (c.hear e).stage = r.check state { (c.hear e).stage with
      plan := c.plan.emitAll c.session.root.id e.payload (e.namesAs state.forwards) } :=
    r.onEvent_eq ho he hknown
  cases hcheck : r.check state { (c.hear e).stage with
      plan := c.plan.emitAll c.session.root.id e.payload (e.namesAs state.forwards) } with
  | mk p rest =>
    obtain ⟨r', s'⟩ := rest
    obtain ⟨hcalm, hrun'⟩ : Stage.Calms .model false _ s' ∧ (Engine.machine r').RunsIn .model :=
      MachineRun.check_calms hrun hcheck
    have hact : c.session.engine.onEvent e (c.hear e).stage = (p, .machine r', s') := by
      rw [hm]
      show ((r.onEvent e (c.hear e).stage).1, Engine.machine (r.onEvent e (c.hear e).stage).2.1,
        (r.onEvent e (c.hear e).stage).2.2) = _
      rw [hforward, hcheck]
    show Plan.Silent _ (c.handleEvent e).2.plan
    rw [handleEvent_model hr ha hend hact]
    have hcat' : s'.catalog.Modest := (Stage.Kept.moves hcalm.moves).catalog ▸ hcat
    exact (hcalm.silent hcat).trans (withEngine_silent (c := c.hear e) hr ha hrun' hcat' p)

theorem heeded_sound (hs : c.Sound) (hr : c.session.isRunning = true) {active : ActiveHandler}
    (ha : c.session.faults.active = some active) (e : Event) : (c.heeded active e).Sound := by
  refine .of_running hr hs.model fun other ho => ?_
  obtain rfl := Option.some.inj ho
  have hact : active.engine.Act (c.hear e).stage _ _ := .onEvent e
  exact (hact.moves (hs.handler active ha)).2

/-- While a handler runs, and when the machine goes on after it, nothing is emitted but by that
handler. -/
theorem deliver_withholds (hs : c.Sound) (hcat : c.session.core.catalog.Modest) {r : MachineRun}
    (hm : c.session.engine = .machine r) {e : Event}
    (h : c.Absorbs e ∨ c.Finishes e ∧ c.session.faults.pending = []) :
    ∃ active, c.session.faults.active = some active ∧
      (c.deliver (.event e)).2.plan.emitted = (c.heeded active e).plan.emitted := by
  rcases h with h | ⟨h, hp⟩
  · obtain ⟨active, ha, hd⟩ := h.deliver
    exact ⟨active, ha, by rw [hd]⟩
  · obtain ⟨hsurvives, active, completion, ha, hfinished⟩ := h
    have hr := hsurvives.1
    have hd := hsurvives.deliver_finished ha hfinished hp
    have hmoves := ((Engine.Act.onEvent e).moves (s := (c.hear e).stage) (hs.handler active ha)).1
    have hcat' : (c.heeded active e).session.core.catalog.Modest :=
      (Stage.Kept.moves hmoves).catalog ▸ hcat
    refine ⟨active, ha, ?_⟩
    rw [hd]
    exact (resolve_silent (heeded_sound hs hr ha e) hr hcat' hm _ completion).emitted

end Scene

/-- An event of a state's own task is emitted on the root as often as the state forwards it, with
its payload, when no handler runs at its delivery. While a handler runs nothing is emitted but by
that handler, neither when an event comes nor when the machine goes on after the last of them. -/
theorem forwards_unless_suspended {root : Handle} {s : Session} (hs : s.Unstarted root)
    (hcat : s.core.catalog.Modest) {p : Plan} {calls : List Call} {c : Scene}
    (hc : Scene.after ⟨s, p⟩ calls = c) (hr : c.session.isRunning = true) {r : MachineRun}
    (hm : c.session.engine = .machine r) :
    (c.session.faults.active = none → ∀ (state : State) (t : Handle) (e : Event),
      r.Occupies state t → t.id ≠ c.session.root.id →
      c.plan.tasks.contains c.session.root.id = true → e.task = t.id →
      let forwarded := e.namesAs state.forwards
      let d := (c.deliver (.event e)).2
      d.plan.emitted = (forwarded.map (c.session.root.id, ·)).reverse ++ c.plan.emitted ∧
        (c.plan.outbox ++ forwarded.map fun name => .event ⟨c.session.root.id, name, e.payload⟩) <+:
          d.plan.outbox) ∧
      (c.session.faults.active.isSome = true → ∀ (events : List Event) (e : Event),
        c.AbsorbsAll events →
        let d := c.hearing events
        d.session.engine = .machine r ∧
          (d.Absorbs e ∨ d.Finishes e ∧ c.session.faults.pending = [] →
            ∃ active, d.session.faults.active = some active ∧
              (d.deliver (.event e)).2.plan.emitted = (d.heeded active e).plan.emitted)) := by
  have hsound := (hs.fresh.sound p).after calls
  have hcatalog := Scene.after_catalog (hs.fresh.sound p) calls ▸ hcat
  rw [hc] at hsound hcatalog
  refine ⟨fun ha state t e ho ht hknown he => ?_, fun ha events e habsorbs => ?_⟩
  · have hsilent := Scene.deliver_forwards hsound hcatalog hr ha hm ho ht hknown he
    intro forwarded d
    rw [← Plan.emitAll_emitted, ← Plan.emitAll_outbox]
    exact ⟨hsilent.emitted, hsilent.reported⟩
  · obtain ⟨active, hactive⟩ := Option.isSome_iff_exists.mp ha
    intro d
    have hsuspended : c.Suspended d := (Scene.Suspended.refl hactive).hearing habsorbs
    have hm' : d.session.engine = .machine r := hsuspended.engine.trans hm
    refine ⟨hm', fun h => ?_⟩
    rw [← hsuspended.pending] at h
    have hd : d.Sound := hsound.after _
    have hcat' : d.session.core.catalog.Modest :=
      Scene.after_catalog hsound (events.map fun e => .deliver (.event e)) ▸ hcatalog
    exact Scene.deliver_withholds hd hcat' hm' h

/-! ## A sample -/

/-- A state with a task of its own that forwards what the task sees. -/
def State.walk : State :=
  ⟨"walk", some (.builder "worker" .empty), [⟨.on .success, "home", []⟩],
    [⟨⟨"seen"⟩, ⟨"sighted"⟩⟩], false⟩

/-- A session whose model is a machine, with a response to any fault. -/
def Session.walking : Session :=
  ((Session.new "session" .sample
    (.machine ⟨"patrol", [], [.walk, ⟨"home", none, [], [], true⟩], "walk"⟩)).withCatalog
      (Catalog.empty.addBuilder "worker" (.started "Worker"))).withTable .sample

theorem Session.walking_unstarted : Session.walking.Unstarted .sample :=
  .withTable _ (.withCatalog _ (.new ..))

/-- The run of the machine once its first state was entered. -/
def MachineRun.walking : MachineRun where
  toCourse := { Course.idle .model 1 with
    status := .running
    step := some ⟨⟨.model, "walk", 1⟩, some ⟨Plan.idOf 2, "Worker"⟩, 0⟩
    activation := 1 }
  machine := ⟨"patrol", [], [.walk, ⟨"home", none, [], [], true⟩], "walk"⟩
  state := some "walk"

theorem MachineRun.walking_occupies :
    MachineRun.walking.Occupies .walk ⟨Plan.idOf 2, "Worker"⟩ :=
  ⟨rfl, rfl, rfl, rfl⟩

def Event.seen : Event := ⟨Plan.idOf 2, ⟨"seen"⟩, some (.int 7)⟩

theorem forwards_unless_suspended_walking :
    let c := Scene.after ⟨.walking, .sample⟩ [.start]
    c.session.faults.active = none ∧
      (c.deliver (.event .seen)).2.plan.emitted = [(Handle.sample.id, ⟨"sighted"⟩)] := by
  intro c
  have hc : Scene.after ⟨.walking, .sample⟩ [.start] = c := rfl
  have hr : c.session.isRunning = true := by decide
  have hm : c.session.engine = .machine .walking := by decide
  have ha : c.session.faults.active = none := by decide
  have hknown : c.plan.tasks.contains c.session.root.id = true := by decide
  obtain ⟨hforwards, _⟩ := forwards_unless_suspended Session.walking_unstarted
    Session.sample_modest hc hr hm
  refine ⟨ha, ?_⟩
  exact (hforwards ha .walk _ .seen MachineRun.walking_occupies (by decide) hknown rfl).1

/-- The task of a state is seen while a fault is handled. The machine goes on in that state, and
the root is never told. -/
theorem forwards_lost_in_suspension :
    let c := Scene.after ⟨.walking, .sample⟩ [.start, .deliver (.fault .sample)]
    let d := c.after [.deliver (.event .seen), .deliver (.event .go)]
    c.session.isRunning = true ∧ c.session.engine = .machine .walking ∧
      MachineRun.walking.Occupies .walk ⟨Event.seen.task, "Worker"⟩ ∧
      Event.seen.namesAs State.walk.forwards = [⟨"sighted"⟩] ∧
      d.session.isRunning = true ∧ d.session.engine = .machine .walking ∧
      d.session.faults.active = none ∧ d.plan.emitted = [] := by
  intro c d
  have hc : c.session.isRunning = true ∧ c.session.engine = .machine .walking := by decide
  have hd : d.session.isRunning = true ∧ d.session.engine = .machine .walking ∧
      d.session.faults.active = none ∧ d.plan.emitted = [] := by decide
  exact ⟨hc.1, hc.2, MachineRun.walking_occupies, by decide, hd⟩

end Conductor
