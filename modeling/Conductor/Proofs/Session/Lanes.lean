import Conductor.Proofs.Engine.Tending
import Conductor.Proofs.Session.Calls
import Conductor.Proofs.Session.Deliveries
import Conductor.Proofs.Stage.Kept

/-!
The lanes of a session. The model and the active handler each tend a lane of their own, so that a
lane holds at most one task, which is that of the step, and nothing is left in the lane of the
handlers while none runs.
-/

namespace Conductor

theorem Status.begun {s : Status} (h : s.isRunning = true ∨ s.isTerminal = true) :
    s ≠ .created := by
  rintro rfl
  rcases h with h | h <;> cases h

/-- A session that has taken a turn is past its creation. -/
theorem Turn.begun {m m' : Moment} (h : Turn m m') : m'.scene.session.status ≠ .created := by
  cases h with
  | begin | cancel => nofun
  | hear e hr | count f hr | model hr | handler hr | unhandled hr | draw hr | trigger _ hr
  | install _ hr | resolve _ hr | escalate hr => exact Status.begun (.inl hr)
  | @queue c f hr =>
    obtain ⟨trail, he⟩ := c.enqueue_eq f
    show (c.enqueue f).session.status ≠ .created
    rw [he]
    exact Status.begun (.inl hr)
  | @displace c f active hr ha =>
    have hstatus : c.abandonHandler.2.session.status = c.session.status :=
      Scene.abandonHandler_status c
    refine Status.begun (.inl ?_)
    show c.abandonHandler.2.session.status.isRunning = true
    rw [hstatus]
    exact hr
  | exhaust => exact Status.begun (.inr (Scene.exhaust_terminal ..))
  | succeed => exact Status.begun (.inr (Scene.succeed_terminal ..))
  | fail => exact Status.begun (.inr (Scene.fail_terminal ..))
  | halt => exact Status.begun (.inr (Scene.halt_terminal ..))

namespace Scene

variable {c c' : Scene} {f : Fault}

theorem call_created (hs : c.Sound) (call : Call)
    (h : (c.call call).session.status = .created) : (c.call call).session = c.session := by
  refine (call_preserves (P := fun d => d.session.status = .created → d.session = c.session)
    (fun _ _ ht _ _ h => absurd h ht.begun) hs call (fun command _ _ _ => ?_) fun _ => rfl).1 h
  exact c.drive_session command

/-- The engines of a session tend their lanes, and while no handler runs the lane of the handlers
is free. -/
structure Tended (c : Scene) : Prop where
  model : c.session.engine.course.Tends .model c.stage
  handler : ∀ active, c.session.faults.active = some active →
    active.engine.course.Tends .handler c.stage
  free : c.session.faults.active = none → c.stage.slots.holdings .handler = []

namespace Tended

theorem of_same (h : c.Tended) (he : c'.session.engine = c.session.engine)
    (ha : c'.session.faults.active = c.session.faults.active)
    (hs : c'.session.core.slots = c.session.core.slots) : c'.Tended := by
  have hholdings : ∀ lane, c'.stage.slots.holdings lane = c.stage.slots.holdings lane :=
    fun lane => congrArg (Slots.holdings · lane) hs
  refine ⟨?_, fun active hactive => ?_, fun hnone => ?_⟩
  · rw [he]
    exact h.model.of_same (hholdings .model)
  · exact (h.handler active (ha ▸ hactive)).of_same (hholdings .handler)
  · rw [hholdings]
    exact h.free (ha ▸ hnone)

theorem of_no_handler (hm : c.session.engine.course.Tends .model c.stage)
    (ha : c.session.faults.active = none) (hfree : c.stage.slots.holdings .handler = []) :
    c.Tended :=
  ⟨hm, fun _ h => (nomatch ha.symm.trans h), fun _ => hfree⟩

/-- The model has acted while no handler runs. -/
theorem withEngine (h : c.Tended) (ha : c.session.faults.active = none) {e : Engine} {s : Stage}
    (he : e.course.Tends .model s) (hm : c.stage.Moves .model s) : (c.withEngine e s).Tended :=
  of_no_handler he ha ((hm.holdings (by simp)).trans (h.free ha))

/-- The active handler has acted. -/
theorem withHandler (h : c.Tended) {active : ActiveHandler} {e : Engine} {s : Stage}
    (he : e.course.Tends .handler s) (hm : c.stage.Moves .handler s) :
    (c.withHandler active e s).Tended := by
  refine ⟨h.model.of_same (hm.holdings (by simp)), fun other ho => ?_, nofun⟩
  obtain rfl := Option.some.inj ho
  exact he

end Tended

/-! ## Ends -/

theorem cleared_engine (c : Scene) : c.cleared.session.engine = c.session.engine := by
  unfold cleared abandonHandler
  split <;> rfl

theorem retireEverything_live (c : Scene) : c.retireEverything.session.core.slots.live = [] := by
  rw [retireEverything_eq, withEngine_core]
  exact Stage.retireAll_live _

/-- Nothing is left in either lane of a session that ends. -/
theorem closing_tended (hm : c.session.engine.RunsIn .model) {g : Session → Session}
    (hg : Closing g) (hc : c' = c.retireEverything.map g) : c'.Tended := by
  -- All slots are emptied, so nothing need be known of the lanes as they were before.
  have hrun : c.cleared.session.engine.RunsIn .model := (cleared_engine c) ▸ hm
  obtain ⟨hstopped, hstep⟩ := Engine.stop_tends hrun c.cleared.stage
  have hlive : c'.session.core.slots.live = [] := by
    rw [hc, map, hg.slots]
    exact c.retireEverything_live
  have hfree : ∀ lane, c'.session.core.slots.holdings lane = [] := by
    intro lane
    simp only [Slots.holdings, hlive, List.filter_nil, List.map_nil]
  have hengine : c'.session.engine = (c.cleared.session.engine.stop c.cleared.stage).1 := by
    rw [hc, map, hg.engine, retireEverything_eq, withEngine_engine]
  have hnone : c'.session.faults.active = none := by
    rw [hc, map, hg.faults]
    exact (cleared_faults c).1
  refine .of_no_handler ?_ hnone (hfree .handler)
  rw [hengine]
  exact .of_no_step hstopped.home hstep (hfree .model)

theorem exhaust_tended (hm : c.session.engine.RunsIn .model) (f : Fault) :
    (c.exhaust f).2.Tended := by
  obtain ⟨g, hg, he⟩ := fail_eq (c.giveUp f) .escalationExhausted
  exact closing_tended (c := c.giveUp f) hm hg he

theorem halt_tended (hm : c.session.engine.RunsIn .model) (reason : String) :
    (c.halt reason).2.Tended := by
  obtain ⟨g, hg, he⟩ := halt_eq c reason
  exact closing_tended hm hg he

theorem settleModel_tended (h : c.Tended) (p : Progress) : (c.settleModel p).2.Tended := by
  obtain he | ⟨g, hg, he⟩ := settleModel_eq c p
  · rw [he]
    exact h
  · exact closing_tended h.model.home hg he

theorem abandonHandler_tended (h : c.Tended) : c.abandonHandler.2.Tended := by
  cases ha : c.session.faults.active with
  | none =>
    simp only [abandonHandler, ha]
    exact h
  | some active =>
    have hrun : active.engine.RunsIn .handler := (h.handler active ha).home
    obtain ⟨hstopped, hstep⟩ := Engine.stop_tends hrun c.stage
    have hmoves := (Engine.stop_calms hrun c.stage).1.moves
    have hmodel := h.model.of_same (hmoves.holdings (by simp))
    have hnone := abandonHandler_active c
    simp only [abandonHandler, ha] at hnone ⊢
    exact .of_no_handler (hmodel.of_same rfl) hnone (hstopped.free hstep)

/-! ## Handlers -/

/-- Once the handler is in no step any longer, it leaves its lane free. -/
theorem endHandler_tended (h : c.Tended) {active : ActiveHandler}
    (ha : c.session.faults.active = some active) (hstep : active.engine.course.step = none)
    (phase : Phase) : (c.endHandler active phase).Tended :=
  .of_no_handler (h.model.of_same rfl) (endHandler_active c active phase)
    ((h.handler active ha).free hstep)

theorem resumptionOf_tends (c : Scene) (active : ActiveHandler) {e : Engine} {s : Stage}
    (he : e.course.Tends .model s) :
    (c.resumptionOf active e s).2.1.course.Tends .model (c.resumptionOf active e s).2.2 := by
  rcases c.resumptionOf_eq active with h | h
  · rw [h]
    exact (Engine.restart_yields he.home s).tends
  · rw [h]
    exact (Engine.resume_yields he).tends

theorem resolve_tended (h : c.Tended) {active : ActiveHandler}
    (ha : c.session.faults.active = some active) (hstep : active.engine.course.step = none)
    (completion : Completion) : (c.resolve active completion).2.Tended := by
  have hended : (c.resolved active completion).Tended :=
    (endHandler_tended h ha hstep .resolved).of_same rfl rfl rfl
  have hnone : (c.resolved active completion).session.faults.active = none :=
    endHandler_active c active .resolved
  have hact := resumptionOf_act (c.resolved active completion) active
    (c.resolved active completion).session.engine (c.resolved active completion).stage
  have hmodel := resumptionOf_tends (c.resolved active completion) active hended.model
  rw [resolve_eq]
  exact settleModel_tended (hended.withEngine hnone hmodel (hact.moves hended.model.home).1) _

theorem escalate_tended (h : c.Tended) {active : ActiveHandler}
    (ha : c.session.faults.active = some active) (hstep : active.engine.course.step = none)
    {next : Option Target} (he : c.escalate active = (next, c')) :
    c'.Tended ∧ c'.session.faults.active = none := by
  obtain rfl : (c.escalate active).2 = c' := congrArg Prod.snd he
  exact ⟨(endHandler_tended h ha hstep .escalated).of_same rfl rfl rfl, (escalate_ok he).2.1⟩

theorem ready_tended (h : c.Tended) (ha : c.session.faults.active = none) (target : Target)
    (f : Fault) (d : Disposition) : (c.ready target f d).Tended := by
  have hrecorded : (c.record (.fault f d target.response.name)).Tended := h.of_same rfl rfl rfl
  unfold ready suspend
  split
  · exact hrecorded.withEngine ha (Engine.retireCurrent_tends hrecorded.model)
      (Engine.retireCurrent_calms hrecorded.model.home _).1.moves
  · exact hrecorded

/-- The handler of a response is about to start in a lane of its own, and is in no step. -/
theorem install_tended (h : c.Tended) (ha : c.session.faults.active = none) (target : Target)
    (f : Fault) (d : Disposition) : ((c.ready target f d).install target f).Tended ∧
      ((c.ready target f d).fresh target f).engine.course.step = none := by
  have hready := ready_tended h ha target f d
  have hnone : (c.ready target f d).session.faults.active = none := by
    rw [ready_faults]
    exact ha
  have hnew : ((c.ready target f d).fresh target f).engine.course.step = none := by
    unfold fresh Engine.new
    cases target.response.handler <;> rfl
  refine ⟨⟨hready.model.of_same rfl, fun active hactive => ?_, nofun⟩, hnew⟩
  obtain rfl := Option.some.inj hactive
  exact .of_no_step (Engine.new_runsIn ..) hnew (hready.free hnone)

/-- A handler that was started tends its lane, and where it came to its end at once it is in no
step. -/
theorem startHandler_tended (h : c.Tended) (ha : c.session.faults.active = none) {target : Target}
    {d : Disposition} {p : Progress} (hs : c.startHandler target f d = (p, c')) :
    c'.Tended ∧ ∀ active, c'.session.faults.active = some active → p.isTerminal = true →
      active.engine.course.step = none := by
  obtain ⟨hinstalled, hnew⟩ := install_tended h ha target f d
  have hidle := hinstalled.handler _ rfl
  rw [startHandler_eq] at hs
  split at hs
  · rename_i e s hstart
    cases hs
    have hyields := Engine.start_yields hidle.home (hidle.free hnew) hstart
    refine ⟨hinstalled.withHandler hyields.tends (Engine.start_calms hidle.home hstart).1.moves, ?_⟩
    intro active hactive hend
    obtain rfl := Option.some.inj hactive
    exact hyields.ended hend
  · cases hs
    refine ⟨hinstalled, fun active hactive _ => ?_⟩
    obtain rfl := Option.some.inj hactive
    exact hnew

theorem engage_tended (fuel : Nat) (h : c.Tended) (ha : c.session.faults.active = none)
    (target : Target) (f : Fault) (d : Disposition) : (engage fuel c target f d).2.Tended := by
  induction fuel generalizing c target d with
  | zero => exact exhaust_tended h.model.home f
  | succ fuel ih =>
    cases hs : c.startHandler target f d with
    | mk p c₁ =>
      obtain ⟨_, _, active, hactive, _⟩ := startHandler_ok hs
      obtain ⟨hstarted, hended⟩ := startHandler_tended h ha hs
      simp only [engage, hs, hactive]
      cases p with
      | waiting | advanced => exact hstarted
      | finished completion =>
        exact resolve_tended hstarted hactive (hended active hactive rfl) completion
      | failed error =>
        -- The handler failed at once: it is in no step, so the next one finds its lane free.
        have hstep := hended active hactive rfl
        simp only
        split
        · rename_i next c₂ he
          obtain ⟨hescalated, hnone⟩ := escalate_tended hstarted hactive hstep he
          exact ih hescalated hnone next .triggered
        · rename_i c₂ he
          obtain ⟨hescalated, _⟩ := escalate_tended hstarted hactive hstep he
          exact exhaust_tended hescalated.model.home f

/-! ## Faults -/

theorem vacated_active (c : Scene) : c.vacated.session.faults.active = none := by
  unfold vacated recordDropped
  split <;> exact abandonHandler_active c.counted

namespace Tended

theorem vacated (h : c.Tended) : c.vacated.Tended := by
  have hcounted : c.counted.Tended := h.of_same rfl rfl rfl
  have habandoned := abandonHandler_tended hcounted
  unfold Scene.vacated recordDropped
  split
  · exact habandoned.of_same rfl rfl rfl
  · exact habandoned

theorem route (h : c.Tended) (f : Fault) : (c.route f).2.Tended := by
  have hcounted : c.counted.Tended := h.of_same rfl rfl rfl
  cases hd : c.session.faults.decide f (c.session.inReach f) with
  | unhandled =>
    rw [route_eq, hd]
    exact hcounted.of_same rfl rfl rfl
  | queue =>
    rw [route_eq, hd]
    obtain ⟨trail, he⟩ := c.counted.enqueue_eq f
    refine hcounted.of_same ?_ (enqueue_active c f) ?_
    · rw [he]
      rfl
    · rw [he]
      rfl
  | preempt target =>
    rw [route_eq, hd]
    have hnone : c.vacated.session.faults.active = none := vacated_active c
    exact engage_tended _ h.vacated hnone target f .preempted
  | activate target =>
    rw [route_eq, hd]
    exact engage_tended _ hcounted (decide_activate hd) target f .triggered

theorem withPending (h : c.Tended) (faults : List Fault) : (c.withPending faults).Tended :=
  h.of_same rfl rfl rfl

theorem drain (h : c.Tended) (faults : List Fault) (outcome : Outcome) :
    (Scene.drain faults outcome c).2.Tended :=
  drain_keeps (fun faults h => h.withPending faults) (fun f h => h.route f) h faults outcome

theorem conclude (h : c.Tended) (handling : Handling) : (c.conclude handling).2.Tended :=
  conclude_keeps (fun faults h => h.withPending faults) (fun f h => h.route f) h handling

theorem settleHandler (h : c.Tended) {active : ActiveHandler}
    (ha : c.session.faults.active = some active) {p : Progress}
    (hend : p.isTerminal = true → active.engine.course.step = none) :
    (c.settleHandler active p).2.Tended := by
  cases p with
  | waiting | advanced => exact h
  | finished completion => exact (resolve_tended h ha (hend rfl) completion).drain _ _
  | failed error =>
    simp only [Scene.settleHandler]
    split
    · rename_i next c₁ he
      obtain ⟨hescalated, hnone⟩ := escalate_tended h ha (hend rfl) he
      exact (engage_tended _ hescalated hnone next active.fault .triggered).conclude _
    · rename_i c₁ he
      obtain ⟨hescalated, _⟩ := escalate_tended h ha (hend rfl) he
      exact exhaust_tended hescalated.model.home active.fault

/-! ## Calls -/

theorem handleEvent (h : c.Tended) (e : Event) : (c.handleEvent e).2.Tended := by
  have hheard : (c.hear e).Tended := h.of_same rfl rfl rfl
  cases hr : c.session.isRunning with
  | false =>
    rw [handleEvent_idle hr]
    exact h
  | true =>
    by_cases he : e.task = c.session.root.id ∧ e.name.isTerminal = true
    · rw [handleEvent_root hr he]
      exact halt_tended hheard.model.home _
    · cases ha : c.session.faults.active with
      | some active =>
        have hactive := hheard.handler active ha
        have hyields := Engine.onEvent_yields hactive e
        have hmoves := (Engine.onEvent_reports hactive.home e (c.hear e).stage).1.moves
        rw [handleEvent_handler hr ha he rfl]
        exact (hheard.withHandler hyields.tends hmoves).settleHandler rfl hyields.ended
      | none =>
        have hyields := Engine.onEvent_yields hheard.model e
        have hmoves := (Engine.onEvent_reports hheard.model.home e (c.hear e).stage).1.moves
        rw [handleEvent_model hr ha he rfl]
        exact settleModel_tended (hheard.withEngine ha hyields.tends hmoves) _

theorem handleFault (h : c.Tended) (f : Fault) : (c.handleFault f).2.Tended :=
  handleFault_keeps (fun faults h => h.withPending faults) (fun f h => h.route f) h f

/-- A session is started with both lanes free. -/
theorem start (h : c.Tended)
    (hidle : c.session.status = .created →
      c.session.engine.course.step = none ∧ c.session.faults.active = none) :
    c.start.2.Tended := by
  unfold Scene.start
  split
  · exact h
  rename_i hcreated
  obtain ⟨hstep, ha⟩ := hidle (by simpa using hcreated)
  have hbegun : c.begin.Tended := h.of_same rfl rfl rfl
  have hfree := hbegun.model.free hstep
  extract_lets begun
  split
  · rename_i hs
    have hyields := Engine.start_yields hbegun.model.home hfree hs
    have hmoves := (Engine.start_calms hbegun.model.home hs).1.moves
    exact settleModel_tended (hbegun.withEngine ha hyields.tends hmoves) _
  · rename_i error _
    obtain ⟨g, hg, he⟩ := fail_eq c.begin error
    exact closing_tended hbegun.model.home hg he

theorem stop (h : c.Tended) : c.stop.2.Tended := by
  unfold Scene.stop
  split
  · exact halt_tended h.model.home _
  · exact h.of_same rfl rfl rfl
  · exact h

theorem call (h : c.Tended)
    (hidle : c.session.status = .created →
      c.session.engine.course.step = none ∧ c.session.faults.active = none) (call : Call) :
    (c.call call).Tended := by
  cases call with
  | start => exact h.start hidle
  | deliver signal =>
    cases signal with
    | event e => exact h.handleEvent e
    | fault f => exact h.handleFault f
  | stop => exact h.stop
  | drive command =>
    have hsame := c.drive_session command
    exact h.of_same (by rw [Scene.call, hsame]) (by rw [Scene.call, hsame])
      (by rw [Scene.call, hsame])

end Tended

end Scene

/-! ## Sessions -/

namespace Session

/-- The task that a session names as that of a lane. -/
def taskIn (s : Session) : Lane → Option Handle
  | .model => s.engine.task?
  | .handler => s.handlerTask?

/-- The step that the engine of a lane is in. -/
def stepIn (s : Session) : Lane → Option ActiveStep
  | .model => s.engine.course.step
  | .handler => s.faults.active.bind fun active => active.engine.course.step

/-- What the step of a lane says that the lane holds. -/
def holding? (s : Session) (lane : Lane) : Option (SlotKey × Handle) :=
  (s.stepIn lane).bind fun step => step.task.map (step.key, ·)

variable {s : Session} {lane : Lane}

theorem taskIn_eq (s : Session) (lane : Lane) : s.taskIn lane = (s.holding? lane).map Prod.snd := by
  cases lane with
  | model => exact s.engine.course.task?_eq
  | handler =>
    cases ha : s.faults.active with
    | none => simp [taskIn, handlerTask?, holding?, stepIn, ha]
    | some active =>
      have htask := active.engine.course.task?_eq
      simpa [taskIn, handlerTask?, holding?, stepIn, ha, Engine.task?, Course.holding?] using htask

theorem Unstarted.step {root : Handle} (h : s.Unstarted root) : s.engine.course.step = none := by
  induction h with
  | new id model => cases model <;> rfl
  | withConfig _ _ ih | withCatalog _ _ ih | withTable _ _ ih => exact ih

namespace Reachable

/-- Before its start a session is in no step and handles nothing. -/
theorem idle (h : s.Reachable) (hs : s.status = .created) :
    s.engine.course.step = none ∧ s.faults.active = none := by
  refine ⟨?_, ((h.sound .empty).rest (congrArg Status.isRunning hs)).1⟩
  induction h with
  | unstarted hu => exact hu.step
  | call p call hr ih =>
    have hsame := Scene.call_created (hr.sound p) call hs
    rw [hsame] at hs ⊢
    exact ih hs
  | taken _ ih => exact ih hs

theorem tended (h : s.Reachable) (p : Plan) : Scene.Tended ⟨s, p⟩ := by
  induction h generalizing p with
  | @unstarted root s hu =>
    have hfree : ∀ lane, s.core.slots.holdings lane = [] := by
      intro lane
      rw [hu.fresh.slots]
      rfl
    refine .of_no_handler ?_ hu.fresh.active (hfree .handler)
    exact .of_no_step hu.fresh.engine hu.step (hfree .model)
  | call q call hr ih =>
    have hcalled := (ih q).call hr.idle call
    exact hcalled.of_same rfl rfl rfl
  | taken _ ih => exact (ih p).of_same rfl rfl rfl

theorem holdings (h : s.Reachable) (lane : Lane) :
    s.core.slots.holdings lane = (s.holding? lane).toList := by
  have ht := h.tended .empty
  cases lane with
  | model => exact ht.model.holds
  | handler =>
    cases ha : s.faults.active with
    | none =>
      have hfree : s.core.slots.holdings .handler = [] := ht.free ha
      simp [hfree, holding?, stepIn, ha]
    | some active =>
      have hholds : s.core.slots.holdings .handler = active.engine.course.holding?.toList :=
        (ht.handler active ha).holds
      simp [hholds, holding?, stepIn, ha, Course.holding?]

theorem liveIn_le (h : s.Reachable) (lane : Lane) : s.core.slots.liveIn lane ≤ 1 := by
  rw [← Slots.length_holdings, h.holdings]
  cases s.holding? lane <;> simp

theorem holding?_of_mem (h : s.Reachable) {slot : Slot} (hs : slot ∈ s.core.slots.live)
    (hl : slot.key.lane = lane) : s.holding? lane = some (slot.key, slot.handle) := by
  have hmem := Slots.mem_holdings hs hl
  rwa [h.holdings, Option.mem_toList] at hmem

theorem exists_of_holding? (h : s.Reachable) {held : SlotKey × Handle}
    (hh : s.holding? lane = some held) : ∃ slot ∈ s.core.slots.live, slot.key.lane = lane := by
  have hmem : held ∈ s.core.slots.holdings lane := by
    rw [h.holdings, hh]
    exact List.mem_singleton.mpr rfl
  obtain ⟨slot, hslot, _⟩ := List.mem_map.mp hmem
  obtain ⟨hlive, hlane⟩ := List.mem_filter.mp hslot
  exact ⟨slot, hlive, by simpa using hlane⟩

/-- Whatever calls a session has seen, each of its lanes holds at most one task: it holds one
exactly when the session names a task for the lane, and then it holds that task under the key of the
step. So there are at most two children, and none in the lane of the handlers while no handler is
active. -/
theorem one_task_per_lane (h : s.Reachable) :
    (∀ lane,
      s.core.slots.liveIn lane ≤ 1 ∧
      ((∃ slot ∈ s.core.slots.live, slot.key.lane = lane) ↔ (s.taskIn lane).isSome = true) ∧
      ∀ slot ∈ s.core.slots.live, slot.key.lane = lane →
        s.taskIn lane = some slot.handle ∧
          ∃ step, s.stepIn lane = some step ∧ step.key = slot.key ∧
            step.task = some slot.handle) ∧
    s.core.slots.children.length ≤ 2 ∧
    (s.faults.active = none → ∀ slot ∈ s.core.slots.live, slot.key.lane ≠ .handler) := by
  refine ⟨fun lane => ⟨h.liveIn_le lane, ⟨?_, ?_⟩, ?_⟩, ?_, ?_⟩
  · rintro ⟨slot, hs, hl⟩
    rw [taskIn_eq, h.holding?_of_mem hs hl]
    rfl
  · intro htask
    rw [taskIn_eq, Option.isSome_map, Option.isSome_iff_exists] at htask
    obtain ⟨held, hheld⟩ := htask
    exact h.exists_of_holding? hheld
  · intro slot hs hl
    have hheld := h.holding?_of_mem hs hl
    refine ⟨by rw [taskIn_eq, hheld]; rfl, ?_⟩
    obtain ⟨step, hstep, htask⟩ := Option.bind_eq_some_iff.mp hheld
    obtain ⟨handle, hhandle, he⟩ := Option.map_eq_some_iff.mp htask
    obtain ⟨hkey, rfl⟩ := Prod.mk.inj he
    exact ⟨step, hstep, hkey, hhandle⟩
  · have hmodel := h.liveIn_le .model
    have hhandler := h.liveIn_le .handler
    rw [Slots.length_children]
    omega
  · intro ha slot hs hl
    have hheld := h.holding?_of_mem hs hl
    simp [holding?, stepIn, ha] at hheld

end Reachable

/-- A table whose handler does a task of its own. -/
def aiding : ResponseTable :=
  .ofResponses "aiding"
    [⟨"aid", .any, .script ⟨"aide", [], [.run "assist" (.builder "worker" .empty)]⟩, 0, .direct,
      .goOn, false⟩]

/-- A session in which a handler does its task while that of the model goes on. -/
def aided : Session :=
  (Scene.after ⟨sample.withTable aiding, .sample⟩ [.start, .deliver (.fault .sample)]).session

theorem aided_reachable : aided.Reachable :=
  (Reachable.unstarted (.withTable aiding sample_unstarted)).after .sample
    [.start, .deliver (.fault .sample)]

theorem one_task_per_lane_aided :
    aided.Reachable ∧ aided.core.slots.children.length = 2 ∧
      ∀ slot ∈ aided.core.slots.live, aided.taskIn slot.key.lane = some slot.handle := by
  refine ⟨aided_reachable, by decide, fun slot hs => ?_⟩
  have hlane := aided_reachable.one_task_per_lane.1 slot.key.lane
  exact (hlane.2.2 slot hs rfl).1

end Session

end Conductor
