import Conductor.Proofs.Engine.Entries
import Conductor.Proofs.Session.Reentry

/-!
Entries in a session. In the course of a call the engines of a session are given orders: the model to
start, to react, to go on or to start again, and handlers to start and to react. Whatever happened to the
session before, each engine tends its lane when it is given an order. So every step that is entered finds
its slot empty and is given a task of its own, and there is no other way for a slot to be filled.
-/

namespace Conductor

/-- The tasks that slots are filled with when an order is carried out, in order. -/
def Deed.fillings (d : Deed) : List Handle := d.entries.filterMap Entry.filling?

namespace Scene

variable {c c₁ c' : Scene}

/-- The tasks that slots were ever filled with, the newest first. -/
def filled (c : Scene) : List Handle := c.session.core.slots.filled

/-- The order by which the model goes on once a fault is handled. -/
def resumption (c : Scene) (active : ActiveHandler) : Order :=
  match (c.session.faults.response? active.table active.entry).map Response.resumption with
  | some .restart => .restart
  | _ => .resume

/-- The model is given an order. -/
def orderModel (c : Scene) (o : Order) : Deed := ⟨c.session.engine, o, c.stage⟩

/-- A handler is given an order. -/
def orderHandler (c : Scene) (active : ActiveHandler) (o : Order) : Deed :=
  ⟨active.engine, o, c.stage⟩

/-- The handler of a response is started. -/
def orderStart (c : Scene) (target : Target) (f : Fault) (d : Disposition) : Deed :=
  ((c.ready target f d).install target f).orderHandler ((c.ready target f d).fresh target f) .start

/-- From a scene a job is done by way of orders to engines, with an outcome and a scene after it. -/
inductive Undergoes : Scene → Job → List Deed → Outcome → Scene → Prop where
  | ignore {c : Scene} (signal : Signal) : c.session.isRunning = false →
    Undergoes c (.deliver signal) [] .ignored c
  | rootEnds {c : Scene} {e : Event} : c.session.isRunning = true →
    e.task = c.session.root.id ∧ e.name.isTerminal = true →
    Undergoes c (.deliver (.event e)) [] ((c.hear e).halt "root task ended").1
      ((c.hear e).halt "root task ended").2
  | model {c : Scene} {e : Event} {p : Progress} {engine : Engine} {s : Stage} :
    c.session.isRunning = true → ¬ (e.task = c.session.root.id ∧ e.name.isTerminal = true) →
    c.session.faults.active = none →
    ((c.hear e).orderModel (.hear e)).outcome = (p, engine, s) →
    Undergoes c (.deliver (.event e)) [(c.hear e).orderModel (.hear e)]
      (((c.hear e).withEngine engine s).settleModel p).1
      (((c.hear e).withEngine engine s).settleModel p).2
  | handler {c c' : Scene} {e : Event} {active : ActiveHandler} {p : Progress} {engine : Engine}
    {s : Stage} {deeds : List Deed} {o : Outcome} :
    c.session.isRunning = true → ¬ (e.task = c.session.root.id ∧ e.name.isTerminal = true) →
    c.session.faults.active = some active →
    ((c.hear e).orderHandler active (.hear e)).outcome = (p, engine, s) →
    Undergoes ((c.hear e).withHandler active engine s) (.settle { active with engine } p) deeds o
      c' →
    Undergoes c (.deliver (.event e)) ((c.hear e).orderHandler active (.hear e) :: deeds) o c'
  | fault {c c' : Scene} {f : Fault} {deeds : List Deed} {o : Outcome} :
    c.session.isRunning = true → Undergoes c (.route f) deeds o c' →
    Undergoes c (.deliver (.fault f)) deeds o c'
  | unhandled {c : Scene} {f : Fault} :
    c.session.faults.decide f (c.session.inReach f) = .unhandled →
    Undergoes c (.route f) [] .faultUnhandled (c.counted.record (.fault f .unhandled none))
  | queue {c : Scene} {f : Fault} :
    c.session.faults.decide f (c.session.inReach f) = .queue →
    Undergoes c (.route f) [] .faultQueued (c.counted.enqueue f)
  | preempt {c c' : Scene} {f : Fault} {target : Target} {deeds : List Deed} {o : Outcome} :
    c.session.faults.decide f (c.session.inReach f) = .preempt target →
    Undergoes c.vacated (.activate target f .preempted) deeds o c' →
    Undergoes c (.route f) deeds o c'
  | trigger {c c' : Scene} {f : Fault} {target : Target} {deeds : List Deed} {o : Outcome} :
    c.session.faults.decide f (c.session.inReach f) = .activate target →
    Undergoes c.counted (.activate target f .triggered) deeds o c' →
    Undergoes c (.route f) deeds o c'
  | activate {c c₁ c' : Scene} {target : Target} {f : Fault} {d : Disposition} {p : Progress}
    {active : ActiveHandler} {deeds : List Deed} {o : Outcome} :
    c.startHandler target f d = (p, c₁) → c₁.session.faults.active = some active →
    Undergoes c₁ (.settle active p) deeds o c' →
    Undergoes c (.activate target f d) (c.orderStart target f d :: deeds)
      (o.reported c'.session.isSuspended target.response.name) c'
  | wait {c : Scene} {active : ActiveHandler} : Undergoes c (.settle active .waiting) [] .waiting c
  | advance {c : Scene} {active : ActiveHandler} :
    Undergoes c (.settle active .advanced) [] .advanced c
  | resolve {c c' : Scene} {active : ActiveHandler} {completion : Completion} {deeds : List Deed}
    {o : Outcome} :
    Undergoes (c.resolve active completion).2 (.drain (c.resolve active completion).1) deeds o
      c' →
    Undergoes c (.settle active (.finished completion))
      ((c.resolved active completion).orderModel
        ((c.resolved active completion).resumption active) :: deeds) o c'
  | escalate {c c₁ c' : Scene} {active : ActiveHandler} {error : Error} {next : Target}
    {deeds : List Deed} {o : Outcome} :
    c.escalate active = (some next, c₁) →
    Undergoes c₁ (.activate next active.fault .triggered) deeds o c' →
    Undergoes c (.settle active (.failed error)) deeds o c'
  | exhaust {c c₁ : Scene} {active : ActiveHandler} {error : Error} :
    c.escalate active = (none, c₁) →
    Undergoes c (.settle active (.failed error)) [] (c₁.exhaust active.fault).1
      (c₁.exhaust active.fault).2
  | rest {c : Scene} {o : Outcome} : ¬ c.Free ∨ c.session.faults.pending = [] →
    Undergoes c (.drain o) [] o c
  | stop {c c' : Scene} {f : Fault} {rest : List Fault} {o o' : Outcome} {deeds : List Deed} :
    c.Free → c.session.faults.pending = f :: rest →
    Undergoes (c.withPending rest) (.route f) deeds o' c' → o'.isFinal = true →
    Undergoes c (.drain o) deeds o' c'
  | draw {c c₁ c' : Scene} {f : Fault} {rest : List Fault} {o o₁ o' : Outcome}
    {deeds deeds' : List Deed} :
    c.Free → c.session.faults.pending = f :: rest →
    Undergoes (c.withPending rest) (.route f) deeds o₁ c₁ → o₁.isFinal = false →
    Undergoes c₁ (.drain o) deeds' o' c' →
    Undergoes c (.drain o) (deeds ++ deeds') o' c'

/-- Whatever is done is done by way of orders. -/
theorem Performs.undergoes {j : Job} {chains : List Chain} {o : Outcome}
    (h : c.Performs j chains o c') : ∃ deeds, c.Undergoes j deeds o c' := by
  induction h with
  | ignore signal hn => exact ⟨_, .ignore signal hn⟩
  | rootEnds hr he => exact ⟨_, .rootEnds hr he⟩
  | model hr he ha hs => exact ⟨_, .model hr he ha hs⟩
  | handler hr he ha hs _ ih =>
    obtain ⟨_, ih⟩ := ih
    exact ⟨_, .handler hr he ha hs ih⟩
  | fault hr _ ih =>
    obtain ⟨_, ih⟩ := ih
    exact ⟨_, .fault hr ih⟩
  | unhandled hd => exact ⟨_, .unhandled hd⟩
  | queue hd => exact ⟨_, .queue hd⟩
  | preempt hd _ ih =>
    obtain ⟨_, ih⟩ := ih
    exact ⟨_, .preempt hd ih⟩
  | trigger hd _ ih =>
    obtain ⟨_, ih⟩ := ih
    exact ⟨_, .trigger hd ih⟩
  | activate hs ha _ ih =>
    obtain ⟨_, ih⟩ := ih
    exact ⟨_, .activate hs ha ih⟩
  | wait => exact ⟨_, .wait⟩
  | advance => exact ⟨_, .advance⟩
  | resolve _ ih =>
    obtain ⟨_, ih⟩ := ih
    exact ⟨_, .resolve ih⟩
  | escalate he _ ih =>
    obtain ⟨_, ih⟩ := ih
    exact ⟨_, .escalate he ih⟩
  | exhaust he => exact ⟨_, .exhaust he⟩
  | rest h => exact ⟨_, .rest h⟩
  | stop hfree hp _ hfinal ih =>
    obtain ⟨_, ih⟩ := ih
    exact ⟨_, .stop hfree hp ih hfinal⟩
  | draw hfree hp _ hfinal _ ih ih' =>
    obtain ⟨_, ih⟩ := ih
    obtain ⟨_, ih'⟩ := ih'
    exact ⟨_, .draw hfree hp ih hfinal ih'⟩

/-! ## What fills no slot -/

theorem stop_filled (e : Engine) (s : Stage) : (e.stop s).2.slots.filled = s.slots.filled :=
  (e.course.stop_still s).filled

theorem suspend_filled (c : Scene) (r : Response) : (c.suspend r).filled = c.filled := by
  unfold suspend
  split
  · simp only [Engine.retireCurrent, Course.retireCurrent]
    split
    · rename_i step _
      split
      · exact c.stage.retire_filled step.key
      · rfl
    · rfl
  · rfl

theorem abandonHandler_filled (c : Scene) : c.abandonHandler.2.filled = c.filled := by
  unfold abandonHandler
  split
  · rfl
  · exact stop_filled _ c.stage

theorem vacated_filled (c : Scene) : c.vacated.filled = c.filled := by
  refine Eq.trans ?_ c.counted.abandonHandler_filled
  unfold vacated recordDropped
  split <;> rfl

theorem retireEverything_filled (c : Scene) : c.retireEverything.filled = c.filled := by
  have hretired : ∀ s : Stage, s.retireAll.slots.filled = s.slots.filled := fun s =>
    (Slots.retireLane_filled ..).trans (Slots.retireLane_filled ..)
  have hstopped := stop_filled c.cleared.session.engine c.cleared.stage
  have hcleared : c.cleared.stage.slots.filled = c.filled := c.abandonHandler_filled
  rw [retireEverything_eq, filled, withEngine_core, hretired, hstopped, hcleared]

theorem closing_filled {g : Session → Session} (hg : Closing g)
    (hc : c' = c.retireEverything.map g) : c'.filled = c.filled := by
  rw [hc, ← c.retireEverything_filled]
  exact congrArg Slots.filled (hg.slots c.retireEverything.session)

theorem fail_filled (c : Scene) (error : Error) : (c.fail error).2.filled = c.filled := by
  obtain ⟨g, hg, he⟩ := fail_eq c error
  exact closing_filled hg he

theorem halt_filled (c : Scene) (reason : String) : (c.halt reason).2.filled = c.filled := by
  obtain ⟨g, hg, he⟩ := halt_eq c reason
  exact closing_filled hg he

theorem settleModel_filled (c : Scene) (p : Progress) : (c.settleModel p).2.filled = c.filled := by
  cases p with
  | waiting | advanced => rfl
  | finished completion =>
    obtain ⟨g, hg, he⟩ := succeed_eq c completion
    exact closing_filled hg he
  | failed error => exact c.fail_filled error

theorem enqueue_filled (c : Scene) (f : Fault) : (c.enqueue f).filled = c.filled := by
  obtain ⟨trail, he⟩ := c.enqueue_eq f
  rw [he]
  rfl

theorem exhaust_filled (c : Scene) (f : Fault) : (c.exhaust f).2.filled = c.filled :=
  (c.giveUp f).fail_filled .escalationExhausted

theorem startHandler_filled {target : Target} {f : Fault} {d : Disposition} {p : Progress}
    (h : c.startHandler target f d = (p, c₁)) :
    (c.orderStart target f d).stage.slots.filled = c.filled ∧
      c₁.filled = (c.orderStart target f d).outcome.2.2.slots.filled := by
  refine ⟨suspend_filled _ _, ?_⟩
  rw [startHandler_eq] at h
  simp only [Deed.outcome, orderStart, orderHandler, Engine.obey]
  split at h
  · rename_i hs
    cases h
    rw [hs]
    rfl
  · rename_i hs
    cases h
    rw [hs]
    rfl

theorem resumption_obeyed (c : Scene) (active : ActiveHandler) (e : Engine) (s : Stage) :
    e.obey (c.resumption active) s = c.resumptionOf active e s := by
  unfold resumption resumptionOf
  cases (c.session.faults.response? active.table active.entry).map Response.resumption with
  | none => rfl
  | some r => cases r <;> rfl

/-- The model goes on the way it was told. -/
theorem resolve_filled (c : Scene) (active : ActiveHandler) (completion : Completion) :
    (c.resolve active completion).2.filled =
      ((c.resolved active completion).orderModel
        ((c.resolved active completion).resumption active)).outcome.2.2.slots.filled := by
  rw [resolve_eq, settleModel_filled, Deed.outcome, orderModel, resumption_obeyed]
  rfl

/-! ## What the orders come to -/

/-- Every step is entered afresh, and slots are filled in no other way. -/
structure Renews (c : Scene) (deeds : List Deed) (c' : Scene) : Prop where
  fresh : ∀ d ∈ deeds, ∃ lane, d.Fresh lane
  filled : c'.filled = (deeds.flatMap Deed.fillings).reverse ++ c.filled

namespace Renews

variable {d : Deed} {deeds deeds' : List Deed} {lane : Lane}

theorem nothing (h : c'.filled = c.filled) : c.Renews [] c' := ⟨by simp, h⟩

theorem before (h : c₁.Renews deeds c') (hc : c₁.filled = c.filled) : c.Renews deeds c' :=
  ⟨h.fresh, h.filled.trans (congrArg _ hc)⟩

theorem append (h : c.Renews deeds c₁) (h' : c₁.Renews deeds' c') :
    c.Renews (deeds ++ deeds') c' where
  fresh := List.forall_mem_append.mpr ⟨h.fresh, h'.fresh⟩
  filled := by
    rw [h'.filled, h.filled, List.flatMap_append, List.reverse_append, List.append_assoc]

theorem deed (hd : d.Fresh lane) (hc : d.stage.slots.filled = c.filled)
    (hc' : c'.filled = d.outcome.2.2.slots.filled) : c.Renews [d] c' where
  fresh := by simpa using ⟨lane, hd⟩
  filled := by rw [hc', hd.filled, hc, List.flatMap_singleton]; rfl

theorem cons (hd : c.Renews [d] c₁) (h : c₁.Renews deeds c') : c.Renews (d :: deeds) c' :=
  hd.append h

end Renews

theorem Undergoes.renews {j : Job} {deeds : List Deed} {o : Outcome}
    (h : c.Undergoes j deeds o c') (hc : c.Steady) (hj : j.Ready c) :
    c.Renews deeds c' ∧ c'.Steady := by
  induction h with
  | ignore => exact ⟨.nothing rfl, hc⟩
  | @rootEnds c e hr _ =>
    exact ⟨.nothing ((c.hear e).halt_filled _), (hc.hear e).halt hr "root task ended"⟩
  | @model c e p engine s hr _ ha hs =>
    refine ⟨?_, hc.model hr ha hs⟩
    have hfresh := Deed.fresh (d := (c.hear e).orderModel (.hear e)) (hc.hear e).tended.model
    refine .deed hfresh rfl ?_
    rw [settleModel_filled, hs]
    rfl
  | @handler c c' e active p engine s deeds o hr _ ha hs _ ih =>
    obtain ⟨hheard, hready⟩ := hc.handler hr ha hs
    obtain ⟨hrest, hafter⟩ := ih hheard hready
    have hfresh := Deed.fresh (d := (c.hear e).orderHandler active (.hear e))
      ((hc.hear e).tended.handler active ha)
    refine ⟨.cons (.deed hfresh rfl ?_) hrest, hafter⟩
    rw [hs]
    rfl
  | fault hr _ ih => exact ih hc hr
  | unhandled =>
    exact ⟨.nothing rfl, hc.of_same (hc.regular.sound.of_same rfl rfl id) rfl rfl rfl rfl⟩
  | @queue c f hd => exact ⟨.nothing (c.counted.enqueue_filled f), hc.queue hj hd⟩
  | @preempt c c' f target deeds o hd _ ih =>
    obtain ⟨hvacated, hready⟩ := hc.preempt hj hd
    obtain ⟨hrest, hafter⟩ := ih hvacated hready
    exact ⟨hrest.before c.vacated_filled, hafter⟩
  | trigger hd _ ih =>
    obtain ⟨hcounted, hready⟩ := hc.trigger hj hd
    obtain ⟨hrest, hafter⟩ := ih hcounted hready
    exact ⟨hrest.before rfl, hafter⟩
  | @activate c c₁ c' target f d p active deeds o hs ha _ ih =>
    obtain ⟨hstarted, hready⟩ := hc.activate hj hs ha
    obtain ⟨hrest, hafter⟩ := ih hstarted hready
    obtain ⟨hbefore, hfilled⟩ := startHandler_filled hs
    have hinstalled := (install_tended hc.tended hj.1.2 target f d).1
    have hfresh := Deed.fresh (d := c.orderStart target f d) (hinstalled.handler _ rfl)
    exact ⟨.cons (.deed hfresh hbefore hfilled) hrest, hafter⟩
  | wait | advance => exact ⟨.nothing rfl, hc⟩
  | @resolve c c' active completion deeds o _ ih =>
    obtain ⟨hrest, hafter⟩ := ih (hc.resolve hj) trivial
    have hended := endHandler_tended hc.tended hj.2.1 (hj.2.2 rfl) .resolved
    have hfresh := Deed.fresh (d := (c.resolved active completion).orderModel
      ((c.resolved active completion).resumption active)) (hended.model.of_same rfl)
    exact ⟨.cons (.deed hfresh rfl (c.resolve_filled active completion)) hrest, hafter⟩
  | escalate he _ ih =>
    obtain ⟨hescalated, hfree⟩ := hc.escalate hj he
    obtain ⟨hrest, hafter⟩ := ih hescalated ⟨hfree, escalate_found he, .inl rfl⟩
    obtain rfl := congrArg Prod.snd he
    exact ⟨hrest.before rfl, hafter⟩
  | @exhaust c c₁ active error he =>
    obtain ⟨hescalated, hfree⟩ := hc.escalate hj he
    refine ⟨.nothing ((c₁.exhaust_filled _).trans ?_), hescalated.exhaust hfree.1 _⟩
    obtain rfl := congrArg Prod.snd he
    rfl
  | rest => exact ⟨.nothing rfl, hc⟩
  | stop hfree _ _ _ ih =>
    obtain ⟨hrest, hafter⟩ := ih (hc.withPending hfree _) hfree.1
    exact ⟨hrest.before rfl, hafter⟩
  | @draw c c₁ c' f rest o o₁ o' deeds deeds' hfree _ _ _ _ ih ih' =>
    obtain ⟨hrouted, hafter⟩ := ih (hc.withPending hfree _) hfree.1
    obtain ⟨hrest, hlast⟩ := ih' hafter trivial
    have hfirst : c.Renews deeds c₁ := hrouted.before rfl
    exact ⟨hfirst.append hrest, hlast⟩

/-! ## Calls -/

/-- A call is made by way of orders. -/
def Makes (c : Scene) (deeds : List Deed) : Call → Prop
  | .start => deeds = if c.session.status = .created then [c.begin.orderModel .start] else []
  | .deliver signal => ∃ o, c.Undergoes (.deliver signal) deeds o (c.deliver signal).2
  | .stop | .drive _ => deeds = []

theorem exists_makes (c : Scene) (call : Call) : ∃ deeds, c.Makes deeds call := by
  cases call with
  | start => exact ⟨_, rfl⟩
  | deliver signal =>
    obtain ⟨_, hperforms⟩ := c.deliver_performs signal
    obtain ⟨deeds, hundergoes⟩ := hperforms.undergoes
    exact ⟨deeds, _, hundergoes⟩
  | stop | drive => exact ⟨[], rfl⟩

theorem start_filled (hcreated : c.session.status = .created) :
    c.start.2.filled = (c.begin.orderModel .start).outcome.2.2.slots.filled := by
  unfold start
  rw [if_neg (by simp [hcreated])]
  extract_lets begun
  simp only [Deed.outcome, orderModel, Engine.obey]
  split
  · rename_i p engine s hs
    have hs' : c.begin.session.engine.start c.begin.stage = .ok (p, engine, s) := hs
    rw [hs', settleModel_filled]
    rfl
  · rename_i error hs
    have hs' : c.begin.session.engine.start c.begin.stage = .error error := hs
    rw [hs']
    exact c.begin.fail_filled error

theorem Makes.renews {deeds : List Deed} {call : Call} (h : c.Makes deeds call) (hc : c.Steady) :
    c.Renews deeds (c.call call) := by
  cases call with
  | start =>
    by_cases hcreated : c.session.status = .created
    · rw [Makes, if_pos hcreated] at h
      subst h
      have hfresh := Deed.fresh (d := c.begin.orderModel .start) (hc.tended.model.of_same rfl)
      exact .deed hfresh rfl (start_filled hcreated)
    · rw [Makes, if_neg hcreated] at h
      subst h
      refine .nothing ?_
      rw [call, start, if_pos hcreated]
  | deliver signal =>
    obtain ⟨o, hundergoes⟩ := h
    exact (hundergoes.renews hc trivial).1
  | stop =>
    rw [Makes] at h
    subst h
    refine .nothing ?_
    simp only [call, stop]
    split
    · exact c.halt_filled _
    · rfl
    · rfl
  | drive command =>
    rw [Makes] at h
    subst h
    exact .nothing (congrArg (fun s : Session => s.core.slots.filled) (c.drive_session command))

/-- A handler finishes and the model goes on. Nothing else happens where no fault waits. -/
theorem Makes.of_finished {e : Event} {active : ActiveHandler} {completion : Completion}
    (h : c.Survives e) (ha : c.session.faults.active = some active)
    (hfinished : (active.engine.onEvent e (c.hear e).stage).1 = .finished completion)
    (hp : c.session.faults.pending = []) :
    let ended := { active with engine := (active.engine.onEvent e (c.hear e).stage).2.1 }
    let mended := (c.heeded active e).resolved ended completion
    c.Makes [(c.hear e).orderHandler active (.hear e), mended.orderModel (mended.resumption ended)]
      (.deliver (.event e)) := by
  intro ended mended
  have hrest : ¬ ((c.heeded active e).resolve ended completion).2.Free ∨
      ((c.heeded active e).resolve ended completion).2.session.faults.pending = [] := by
    by_cases hr : ((c.heeded active e).resolve ended completion).2.session.isRunning = true
    · exact .inr ((resolve_pending hr).trans hp)
    · exact .inl fun hfree => hr hfree.1
  refine ⟨((c.heeded active e).resolve ended completion).1, ?_⟩
  rw [h.deliver_finished ha hfinished hp]
  exact .handler h.1 h.2 ha (Prod.ext hfinished rfl) (.resolve (.rest hrest))

end Scene

/-- In a session that is reachable, every call is made by way of orders to engines. Each step with a
source that an engine enters in the course of them finds its slot empty and is given what its source
yields at that moment; a source that describes a task has made exactly one for it. A step that is given
no task fails its run. No slot is filled otherwise. -/
theorem every_entry_fresh {s : Session} (h : s.Reachable) (p : Plan) (call : Call) :
    (∃ deeds, Scene.Makes ⟨s, p⟩ deeds call) ∧
      ∀ deeds, Scene.Makes ⟨s, p⟩ deeds call → Scene.Renews ⟨s, p⟩ deeds (Scene.call ⟨s, p⟩ call) :=
  ⟨Scene.exists_makes _ call, fun _ hmakes => hmakes.renews (h.steady p)⟩

/-! ## A sample -/

/-- The orders that are given when the handler of the session hears what it waits for. -/
def Deed.again : List Deed :=
  let mended := (Scene.set "on").resolved (.set "on") .setting
  [((Scene.guarded "on").hear .go).orderHandler (.setting "on") (.hear .go),
    mended.orderModel (mended.resumption (.set "on"))]

/-- The handler goes on without a task, the model enters its step for a second time. -/
theorem every_entry_fresh_again :
    (Scene.guarded "on").session.Reachable ∧
      (Scene.guarded "on").Makes Deed.again (.deliver (.event .go)) ∧
      Deed.again.map (fun d => d.entries.map Entry.key) = [[], [⟨.model, "go", 2⟩]] ∧
      Deed.again.map Deed.fillings = [[], [⟨⟨"task-3"⟩, "Worker"⟩]] ∧
      (Scene.guarded "on").Renews Deed.again
        ((Scene.guarded "on").call (.deliver (.event .go))) := by
  have hreached := Scene.guarded_reachable "on"
  have hready : (Scene.guarded "on").Survives .go ∧
      (Scene.guarded "on").session.faults.active = some (.setting "on") ∧
      ((ActiveHandler.setting "on").engine.onEvent .go
        ((Scene.guarded "on").hear .go).stage).1 = .finished .setting ∧
      (Scene.guarded "on").session.faults.pending = [] := by
    unfold Scene.Survives
    decide
  obtain ⟨hsurvives, ha, hfinished, hp⟩ := hready
  have hmakes : (Scene.guarded "on").Makes Deed.again (.deliver (.event .go)) :=
    .of_finished hsurvives ha hfinished hp
  obtain ⟨-, hrenews⟩ := every_entry_fresh hreached (Scene.guarded "on").plan (.deliver (.event .go))
  exact ⟨hreached, hmakes, by decide, by decide, hrenews _ hmakes⟩

end Conductor
