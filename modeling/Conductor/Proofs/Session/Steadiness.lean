import Conductor.Proofs.Engine.Reentry
import Conductor.Proofs.Session.Courses
import Conductor.Proofs.Session.Lanes
import Conductor.Proofs.Slots.Roles

/-!
Steady sessions. In the midst of a delivery, too, the engines tend their lanes, and a model whose
task the active handler was to replace has no task. So whatever is to be done next finds the session
in the state that it asks for, all along the chains of handlers.
-/

namespace Conductor

namespace Scene

variable {c c' : Scene} {m m' : Moment}

/-! ## What every turn keeps -/

/-- The model is in a step that it may be in, and the slots have their roles. -/
structure Regular (c : Scene) : Prop where
  sound : c.Sound
  posed : c.session.engine.Posed
  roled : c.session.core.slots.Roled

namespace Regular

theorem of_same (h : c.Regular) (hs : c'.Sound) (he : c'.session.engine = c.session.engine)
    (hl : c'.session.core.slots = c.session.core.slots) : c'.Regular := by
  refine ⟨hs, ?_, ?_⟩
  · rw [he]
    exact h.posed
  · rw [hl]
    exact h.roled

theorem closing (hs : c'.Sound) {g : Session → Session} (hg : Closing g)
    (hc : c' = c.retireEverything.map g) : c'.Regular := by
  refine ⟨hs, ?_, ?_⟩
  · rw [hc, map, hg.engine, retireEverything_eq, withEngine_engine]
    exact .of_no_step (Engine.stop_step ..)
  · intro slot hslot
    rw [hc, map, hg.slots, retireEverything_live] at hslot
    cases hslot

theorem abandonHandler (h : c.Regular) (hs : c.abandonHandler.2.Sound) :
    c.abandonHandler.2.Regular := by
  cases ha : c.session.faults.active with
  | none =>
    simp only [Scene.abandonHandler, ha]
    exact h
  | some active =>
    have hmoves := (Engine.stop_calms (h.sound.handler active ha) c.stage).1.moves
    simp only [Scene.abandonHandler, ha] at hs ⊢
    exact ⟨hs, h.posed, hmoves.roled h.roled⟩

theorem turn (ht : Turn m m') (h : m.scene.Regular) : m'.scene.Regular := by
  have hs := h.sound.turn ht
  cases ht with
  | begin | cancel | hear | count | unhandled | draw | trigger | install | resolve | escalate =>
    exact h.of_same hs rfl rfl
  | model hr ha hact =>
    exact ⟨hs, hact.posed h.posed, (hact.moves h.sound.model).1.roled h.roled⟩
  | handler hr ha hact =>
    exact ⟨hs, h.posed, (hact.moves (h.sound.handler _ ha)).1.roled h.roled⟩
  | @queue c f =>
    obtain ⟨trail, he⟩ := c.enqueue_eq f
    refine h.of_same hs ?_ ?_
    · rw [he]
      rfl
    · rw [he]
      rfl
  | @displace c f active hr ha =>
    have habandoned : c.abandonHandler.2.Sound := hs.of_same rfl rfl id
    exact (h.abandonHandler habandoned).of_same hs rfl rfl
  | @exhaust c f =>
    obtain ⟨g, hg, he⟩ := fail_eq (c.giveUp f) .escalationExhausted
    exact closing hs hg he
  | succeed completion =>
    obtain ⟨g, hg, he⟩ := succeed_eq _ completion
    exact closing hs hg he
  | fail error =>
    obtain ⟨g, hg, he⟩ := fail_eq _ error
    exact closing hs hg he
  | halt reason =>
    obtain ⟨g, hg, he⟩ := halt_eq _ reason
    exact closing hs hg he

theorem turns (h : m.scene.Regular) (ht : Turns m m') : m'.scene.Regular :=
  ht.preserves (P := fun m => m.scene.Regular) (fun _ _ ht h => h.turn ht) h

end Regular

/-! ## What holds between turns -/

/-- Where the response of the active handler replaces the task of the model, the model has none. -/
def Relieved (c : Scene) : Prop :=
  ∀ active r, c.session.faults.active = some active →
    c.session.faults.response? active.table active.entry = some r → r.replaces = true →
    c.session.engine.task? = none

theorem Relieved.of_no_handler (h : c.session.faults.active = none) : c.Relieved :=
  fun _ _ ha => nomatch h.symm.trans ha

theorem Relieved.of_same (h : c.Relieved) (he : c'.session.engine = c.session.engine)
    (ha : c'.session.faults.active = c.session.faults.active)
    (hr : c'.session.faults.responses = c.session.faults.responses) : c'.Relieved := by
  intro active r hactive hresponse hreplaces
  rw [he]
  rw [ha] at hactive
  rw [Dispatch.response?_congr hr] at hresponse
  exact h active r hactive hresponse hreplaces

structure Steady (c : Scene) : Prop where
  regular : c.Regular
  tended : c.Tended
  relieved : c.Relieved

end Scene

/-- The session is in the state that a job is meant for. -/
def Job.Ready (c : Scene) : Job → Prop
  | .deliver _ | .drain _ => True
  | .route _ => c.session.isRunning = true
  | .activate target _ d => c.Free ∧
    c.session.faults.response? target.table target.entry = some target.response ∧
      (d = .triggered ∨ d = .preempted)
  | .settle active p => c.session.isRunning = true ∧ c.session.faults.active = some active ∧
    (p.isTerminal = true → active.engine.course.step = none)

/-- A handler that has resolved its fault was the active one, and is in no step. -/
def Upshot.Steady : Upshot → Prop
  | .resolved c active completion => c.Steady ∧ (Job.settle active (.finished completion)).Ready c
  | _ => True

namespace Scene

variable {c c' : Scene} {f : Fault} {target : Target} {active : ActiveHandler}

theorem retireCurrent_task? (e : Engine) (s : Stage) : (e.retireCurrent s).1.task? = none := by
  simp only [Engine.retireCurrent, Engine.task?, Engine.withCourse_course, Course.retireCurrent]
  split
  · rename_i step hstep
    split
    · rfl
    · rename_i htask
      simp only [Course.task?, hstep, Option.bind_some]
      simpa using htask
  · rename_i hstep
    simp only [Course.task?, hstep, Option.bind_none]

theorem closing_active {g : Session → Session} (hg : Closing g)
    (hc : c' = c.retireEverything.map g) : c'.session.faults.active = none := by
  rw [hc, map, hg.faults]
  exact (cleared_faults c).1

theorem settleModel_active (ha : c.session.faults.active = none) (p : Progress) :
    (c.settleModel p).2.session.faults.active = none := by
  obtain he | ⟨g, hg, he⟩ := settleModel_eq c p
  · rw [he, ha]
  · exact closing_active hg he

theorem startHandler_engine (c : Scene) (target : Target) (f : Fault) (d : Disposition) :
    (c.startHandler target f d).2.session.engine = (c.ready target f d).session.engine := by
  rw [startHandler_eq]
  split <;> rfl

/-- A model is suspended without its task where the response says so. -/
theorem ready_task? (c : Scene) (f : Fault) (d : Disposition)
    (h : target.response.replaces = true) :
    (c.ready target f d).session.engine.task? = none := by
  unfold ready suspend
  rw [if_pos h]
  exact retireCurrent_task? ..

namespace Steady

/-- While no handler is active, nothing needs to be known of its response. -/
theorem of_turns {hand hand' : Option Fault} (h : c.Steady) (ht : Turns ⟨hand, c⟩ ⟨hand', c'⟩)
    (htended : c'.Tended) (ha : c'.session.faults.active = none) : c'.Steady :=
  ⟨h.regular.turns ht, htended, .of_no_handler ha⟩

theorem of_same (h : c.Steady) (hs : c'.Sound) (he : c'.session.engine = c.session.engine)
    (hl : c'.session.core.slots = c.session.core.slots)
    (ha : c'.session.faults.active = c.session.faults.active)
    (hr : c'.session.faults.responses = c.session.faults.responses) : c'.Steady :=
  ⟨h.regular.of_same hs he hl, h.tended.of_same he ha hl, h.relieved.of_same he ha hr⟩

/-! ## Events -/

variable {e : Event} {p : Progress} {engine : Engine} {s : Stage}

theorem hear (h : c.Steady) (e : Event) : (c.hear e).Steady :=
  h.of_same (h.regular.sound.of_same rfl rfl id) rfl rfl rfl rfl

/-- The active handler has heard of an event. -/
theorem handler (h : c.Steady) (hr : c.session.isRunning = true)
    (ha : c.session.faults.active = some active)
    (hs : active.engine.onEvent e (c.hear e).stage = (p, engine, s)) :
    ((c.hear e).withHandler active engine s).Steady ∧
      (Job.settle { active with engine } p).Ready ((c.hear e).withHandler active engine s) := by
  have hheard := h.hear e
  have hactive := hheard.tended.handler active ha
  have hyields := Engine.onEvent_yields hactive e
  have hmoves := (Engine.onEvent_reports hactive.home e (c.hear e).stage).1.moves
  have hturn : Turn ⟨none, c.hear e⟩ ⟨none, (c.hear e).withHandler active
      (active.engine.onEvent e (c.hear e).stage).2.1
      (active.engine.onEvent e (c.hear e).stage).2.2⟩ := .handler hr ha (.onEvent e)
  rw [hs] at hyields hmoves hturn
  refine ⟨⟨hheard.regular.turn hturn, hheard.tended.withHandler hyields.tends hmoves, ?_⟩,
    hr, rfl, hyields.ended⟩
  intro other r ho hresponse hreplaces
  obtain rfl := Option.some.inj ho
  exact h.relieved active r ha hresponse hreplaces

/-- The model has heard of an event. -/
theorem model (h : c.Steady) (hr : c.session.isRunning = true)
    (ha : c.session.faults.active = none)
    (hs : c.session.engine.onEvent e (c.hear e).stage = (p, engine, s)) :
    (((c.hear e).withEngine engine s).settleModel p).2.Steady := by
  have hheard := h.hear e
  have hmodel : c.session.engine.course.Tends .model (c.hear e).stage := hheard.tended.model
  have hyields := Engine.onEvent_yields hmodel e
  have hmoves := (Engine.onEvent_reports hmodel.home e (c.hear e).stage).1.moves
  have hplain := c.session.engine.onEvent_plain e (c.hear e).stage
  have hturn : Turn ⟨none, c.hear e⟩ ⟨none, (c.hear e).withEngine
      (c.session.engine.onEvent e (c.hear e).stage).2.1
      (c.session.engine.onEvent e (c.hear e).stage).2.2⟩ := .model hr ha (.onEvent e)
  rw [hs] at hyields hmoves hplain hturn
  have hr' : ((c.hear e).withEngine engine s).session.isRunning = true := hr
  have ha' : ((c.hear e).withEngine engine s).session.faults.active = none := ha
  exact hheard.of_turns (.head hturn (settleModel_turns hr' hplain))
    (settleModel_tended (hheard.tended.withEngine ha hyields.tends hmoves) p)
    (settleModel_active ha' p)

theorem halt (h : c.Steady) (hr : c.session.isRunning = true) (reason : String) :
    (c.halt reason).2.Steady := by
  obtain ⟨g, hg, he⟩ := halt_eq c reason
  have hturn : Turn ⟨none, c⟩ ⟨none, (c.halt reason).2⟩ := .halt reason hr
  exact h.of_turns (.single hturn) (halt_tended h.tended.model.home reason)
    (closing_active hg he)

/-! ## Faults -/

theorem withPending (h : c.Steady) (hc : c.Free) (pending : List Fault) :
    (c.withPending pending).Steady := by
  have hs : (c.withPending pending).Sound := .of_no_handler hc.1 h.regular.sound.model hc.2
  exact h.of_same hs rfl rfl rfl rfl

theorem queue (h : c.Steady) (hr : c.session.isRunning = true)
    (hd : c.session.faults.decide f (c.session.inReach f) = .queue) :
    (c.counted.enqueue f).Steady := by
  obtain ⟨active, ha⟩ := decide_displace (.inr hd)
  obtain ⟨trail, he⟩ := c.counted.enqueue_eq f
  obtain ⟨pending, hp⟩ := c.session.faults.enqueue_eq f
  have hcount : Turn ⟨some f, c⟩ ⟨some f, c.counted⟩ := .count f hr
  have hqueue : Turn ⟨some f, c.counted⟩ ⟨none, c.counted.enqueue f⟩ :=
    .queue hr (Option.isSome_of_eq_some ha)
  have hengine : (c.counted.enqueue f).session.engine = c.session.engine := by
    rw [he]
    rfl
  have hslots : (c.counted.enqueue f).session.core.slots = c.session.core.slots := by
    rw [he]
    rfl
  have hresponses : (c.counted.enqueue f).session.faults.responses =
      c.session.faults.responses := by
    rw [enqueue_faults, hp]
    rfl
  exact ⟨h.regular.turns (.head hcount (.single hqueue)),
    h.tended.of_same hengine (enqueue_active c f) hslots,
    h.relieved.of_same hengine (enqueue_active c f) hresponses⟩

theorem trigger (h : c.Steady) (hr : c.session.isRunning = true)
    (hd : c.session.faults.decide f (c.session.inReach f) = .activate target) :
    c.counted.Steady ∧ (Job.activate target f .triggered).Ready c.counted :=
  ⟨h.of_same (h.regular.sound.of_same rfl rfl id) rfl rfl rfl rfl,
    ⟨hr, decide_activate hd⟩, decide_found (.inl hd), .inl rfl⟩

theorem preempt (h : c.Steady) (hr : c.session.isRunning = true)
    (hd : c.session.faults.decide f (c.session.inReach f) = .preempt target) :
    c.vacated.Steady ∧ (Job.activate target f .preempted).Ready c.vacated := by
  obtain ⟨active, ha⟩ := decide_displace (.inl ⟨target, hd⟩)
  have ha' : c.counted.session.faults.active = some active := ha
  have hdropped : c.counted.abandonHandler.1 = some active.fault := (abandonHandler_ok ha').1
  have hcount : Turn ⟨some f, c⟩ ⟨some f, c.counted⟩ := .count f hr
  have hdisplace : Turn ⟨some f, c.counted⟩ ⟨some f, c.vacated⟩ := by
    unfold vacated
    rw [hdropped]
    exact .displace hr ha
  exact ⟨h.of_turns (.head hcount (.single hdisplace)) h.tended.vacated (vacated_active c),
    ⟨Session.running_of_same (vacated_status c) hr, vacated_active c⟩, vacated_found hd, .inr rfl⟩

/-- A handler was started. -/
theorem activate {d : Disposition} (h : c.Steady) (hj : (Job.activate target f d).Ready c)
    (hs : c.startHandler target f d = (p, c')) (ha : c'.session.faults.active = some active) :
    c'.Steady ∧ (Job.settle active p).Ready c' := by
  obtain ⟨hc, hresponse, hd⟩ := hj
  obtain ⟨htended, hended⟩ := startHandler_tended h.tended hc.2 hs
  obtain ⟨hstatus, _, _⟩ := startHandler_ok hs
  obtain ⟨htable, hentry, _, hresponses⟩ := startHandler_target hs ha
  have hturns := startHandler_turns (f := f) hc.1 hc.2 hresponse hd
  have hengine := startHandler_engine c target f d
  rw [hs] at hturns hengine
  refine ⟨⟨h.regular.turns hturns, htended, fun other r ho hr hreplaces => ?_⟩,
    Session.running_of_same hstatus hc.1, ha, hended active ha⟩
  -- The response is that of the target, for which the model was suspended.
  cases ha.symm.trans ho
  rw [Dispatch.response?_congr hresponses, htable, hentry, hresponse] at hr
  obtain rfl := Option.some.inj hr
  rw [hengine]
  exact ready_task? c f d hreplaces

/-- A handler has failed, and another one takes over. -/
theorem escalate {next : Option Target} {error : Error} (h : c.Steady)
    (hj : (Job.settle active (.failed error)).Ready c) (he : c.escalate active = (next, c')) :
    c'.Steady ∧ c'.Free := by
  obtain ⟨hr, ha, hstep⟩ := hj
  obtain ⟨htended, hnone⟩ := escalate_tended h.tended ha (hstep rfl) he
  obtain ⟨hstatus, _, _⟩ := escalate_ok he
  exact ⟨h.of_turns (escalate_turns hr ha he) htended hnone,
    Session.running_of_same hstatus hr, hnone⟩

theorem exhaust (h : c.Steady) (hr : c.session.isRunning = true) (f : Fault) :
    (c.exhaust f).2.Steady := by
  obtain ⟨g, hg, he⟩ := fail_eq (c.giveUp f) .escalationExhausted
  have hturn : Turn ⟨some f, c⟩ ⟨none, (c.exhaust f).2⟩ := .exhaust hr
  exact h.of_turns (.single hturn) (exhaust_tended h.tended.model.home f) (closing_active hg he)

theorem resolve {completion : Completion} (h : c.Steady)
    (hj : (Job.settle active (.finished completion)).Ready c) :
    (c.resolve active completion).2.Steady := by
  obtain ⟨hr, ha, hstep⟩ := hj
  have hnone : (c.resolve active completion).2.session.faults.active = none := by
    rw [resolve_eq]
    have hended : ((c.resolved active completion).runModel
        ((c.resolved active completion).resumptionOf active)).2.session.faults.active = none :=
      endHandler_active c active .resolved
    exact settleModel_active hended _
  exact h.of_turns (resolve_turns hr ha completion)
    (resolve_tended h.tended ha (hstep rfl) completion) hnone

end Steady

/-! ## Performances -/

/-- A steady session stays steady, and it was so wherever a handler had resolved its fault. -/
theorem Performs.steady {j : Job} {chains : List Chain} {o : Outcome}
    (h : c.Performs j chains o c') (hc : c.Steady) (hj : j.Ready c) :
    c'.Steady ∧ ∀ chain ∈ chains, chain.upshot.Steady := by
  induction h with
  | ignore => exact ⟨hc, List.forall_mem_nil _⟩
  | @rootEnds c e hr _ =>
    have hended := (hc.hear e).halt hr "root task ended"
    exact ⟨hended, List.forall_mem_nil _⟩
  | model hr _ ha hs => exact ⟨hc.model hr ha hs, List.forall_mem_nil _⟩
  | handler hr _ ha hs _ ih =>
    obtain ⟨hheard, hready⟩ := hc.handler hr ha hs
    exact ih hheard hready
  | fault hr _ ih => exact ih hc hr
  | unhandled =>
    exact ⟨hc.of_same (hc.regular.sound.of_same rfl rfl id) rfl rfl rfl rfl,
      List.forall_mem_nil _⟩
  | queue hd => exact ⟨hc.queue hj hd, List.forall_mem_nil _⟩
  | preempt hd _ ih =>
    obtain ⟨hvacated, hready⟩ := hc.preempt hj hd
    exact ih hvacated hready
  | trigger hd _ ih =>
    obtain ⟨hcounted, hready⟩ := hc.trigger hj hd
    exact ih hcounted hready
  | activate hs ha _ ih =>
    obtain ⟨hstarted, hready⟩ := hc.activate hj hs ha
    obtain ⟨hafter, hchains⟩ := ih hstarted hready
    -- The chain that was begun has the upshot that it had before its first handler was added.
    obtain ⟨hbegun, hothers⟩ := List.forall_mem_cons.mp hchains
    exact ⟨hafter, List.forall_mem_cons.mpr ⟨hbegun, hothers⟩⟩
  | wait | advance => exact ⟨hc, List.forall_mem_singleton.mpr trivial⟩
  | resolve _ ih =>
    obtain ⟨hafter, hchains⟩ := ih (hc.resolve hj) trivial
    exact ⟨hafter, List.forall_mem_cons.mpr ⟨⟨hc, hj⟩, hchains⟩⟩
  | escalate he _ ih =>
    obtain ⟨hescalated, hfree⟩ := hc.escalate hj he
    exact ih hescalated ⟨hfree, escalate_found he, .inl rfl⟩
  | exhaust he =>
    obtain ⟨hescalated, hfree⟩ := hc.escalate hj he
    exact ⟨hescalated.exhaust hfree.1 _, List.forall_mem_singleton.mpr trivial⟩
  | rest => exact ⟨hc, List.forall_mem_nil _⟩
  | stop hfree _ _ _ ih => exact ih (hc.withPending hfree _) hfree.1
  | draw hfree _ _ _ _ ih ih' =>
    obtain ⟨hrouted, hfirst⟩ := ih (hc.withPending hfree _) hfree.1
    obtain ⟨hafter, hothers⟩ := ih' hrouted trivial
    exact ⟨hafter, List.forall_mem_append.mpr ⟨hfirst, hothers⟩⟩

/-! ## Calls -/

namespace Steady

theorem start (h : c.Steady)
    (hidle : c.session.status = .created →
      c.session.engine.course.step = none ∧ c.session.faults.active = none) :
    c.start.2.Steady := by
  by_cases hcreated : c.session.status = .created
  · obtain ⟨hstep, ha⟩ := hidle hcreated
    have hbegun : c.begin.session.faults.active = none := ha
    have hactive : c.start.2.session.faults.active = none := by
      unfold Scene.start
      rw [if_neg (by simp [hcreated])]
      extract_lets begun
      split
      · rename_i p engine s _
        have hacted : (c.begin.withEngine engine s).session.faults.active = none := hbegun
        exact settleModel_active hacted p
      · rename_i error _
        obtain ⟨g, hg, he⟩ := fail_eq c.begin error
        exact closing_active hg he
    exact h.of_turns (start_turns fun _ => ha) (h.tended.start hidle) hactive
  · have hsame : c.start.2 = c := by
      unfold Scene.start
      rw [if_pos hcreated]
    rw [hsame]
    exact h

theorem deliver (h : c.Steady) (signal : Signal) : (c.deliver signal).2.Steady := by
  obtain ⟨_, hperforms⟩ := c.deliver_performs signal
  exact (hperforms.steady h trivial).1

theorem stop (h : c.Steady) : c.stop.2.Steady := by
  cases hs : c.session.status with
  | running =>
    have hr : c.session.isRunning = true := congrArg Status.isRunning hs
    simp only [Scene.stop, hs]
    exact h.halt hr "stopped by owner"
  | created =>
    have hn : c.session.isRunning = false := congrArg Status.isRunning hs
    have hturn := Turn.cancel hs
    simp only [Scene.stop, hs]
    exact h.of_turns (.single hturn) (h.tended.of_same rfl rfl rfl) (h.regular.sound.rest hn).1
  | succeeded | recovered | failed | stopped =>
    simp only [Scene.stop, hs]
    exact h

theorem call (h : c.Steady)
    (hidle : c.session.status = .created →
      c.session.engine.course.step = none ∧ c.session.faults.active = none) (call : Call) :
    (c.call call).Steady := by
  cases call with
  | start => exact h.start hidle
  | deliver signal => exact h.deliver signal
  | stop => exact h.stop
  | drive command =>
    have hsame := c.drive_session command
    exact h.of_same (h.regular.sound.drive command) (by rw [Scene.call, hsame])
      (by rw [Scene.call, hsame]) (by rw [Scene.call, hsame]) (by rw [Scene.call, hsame])

end Steady

end Scene

/-! ## Sessions -/

namespace Session.Reachable

variable {s : Session}

theorem steady (h : s.Reachable) (p : Plan) : Scene.Steady ⟨s, p⟩ := by
  induction h generalizing p with
  | @unstarted root s hu =>
    have hfresh := hu.fresh
    refine ⟨⟨hfresh.sound p, .of_no_step hu.step, ?_⟩, (Reachable.unstarted hu).tended p,
      .of_no_handler hfresh.active⟩
    intro slot hslot
    have hnew : s.core.slots = .new root s.config.rolePrefix := hfresh.slots
    have hslot' : slot ∈ s.core.slots.live := hslot
    rw [hnew] at hslot'
    cases hslot'
  | call q call hr ih =>
    have hcalled := (ih q).call hr.idle call
    exact hcalled.of_same (hcalled.regular.sound.of_same rfl rfl fun hn => hn) rfl rfl rfl rfl
  | taken _ ih =>
    have hs := ih p
    exact hs.of_same (hs.regular.sound.of_same rfl rfl fun hn => hn) rfl rfl rfl rfl

end Session.Reachable

end Conductor
