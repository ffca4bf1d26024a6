import Conductor.Proofs.Session.Precedence
import Conductor.Proofs.Session.Steadiness
import Conductor.Proofs.Stage.Sparing

/-!
A suspended model is frozen. As long as no handler resolves its fault, the engine of the model does
not move, and its task is neither stopped nor detached, through preemptions and escalations, and
even where a handler does the same task. A response that says so takes the task of the model away
when its handler is started, and that alone.
-/

namespace Conductor

namespace Engine

theorem retireCurrent_of_no_task {e : Engine} (h : e.task? = none) (s : Stage) :
    e.retireCurrent s = (e, s) := by
  have hcourse : e.course.retireCurrent s = (e.course, s) := by
    unfold Course.retireCurrent
    split
    · rename_i step hstep
      have htask : step.task = none := by
        have hnone : e.course.task? = none := h
        rwa [Course.task?, hstep] at hnone
      simp [htask]
    · rfl
  simp only [retireCurrent, hcourse]
  cases e <;> rfl

end Engine

namespace Scene

variable {c c₁ c' m : Scene} {f : Fault} {target : Target} {d : Disposition}
  {active : ActiveHandler}

/-- The engine of the model has not moved, and its lane was spared. -/
structure Frozen (c c' : Scene) : Prop where
  engine : c'.session.engine = c.session.engine
  stage : c.stage.Spares .model c'.stage

namespace Frozen

theorem refl (c : Scene) : c.Frozen c := ⟨rfl, .refl _⟩

theorem trans (h : c.Frozen c₁) (h' : c₁.Frozen c') : c.Frozen c' :=
  ⟨h'.engine.trans h.engine, h.stage.trans h'.stage⟩

theorem of_same (he : c'.session.engine = c.session.engine)
    (hc : c'.session.core.catalog = c.session.core.catalog)
    (hl : c'.session.core.slots = c.session.core.slots) (hp : c'.plan = c.plan) : c.Frozen c' :=
  ⟨he, .of_same hc hl hp⟩

/-- What the model holds stays attached and is not asked to stop, as long as builders are modest. -/
theorem keeps (h : c.Frozen c') (hcat : c.session.core.catalog.Modest) {key : SlotKey}
    {handle : Handle} (hheld : (key, handle) ∈ c.session.core.slots.holdings .model) :
    Plan.Keeps c.session.root.id ⟨handle, key.role c.session.core.slots.rolePrefix⟩ c.plan
      c'.plan :=
  (h.stage.plan key handle hheld).keeps hcat

/-- The active handler acts. -/
theorem withHandler {e : Engine} {s : Stage} (hc : c.session.core.slots.Roled)
    (hm : c.stage.Moves .handler s) : c.Frozen (c.withHandler active e s) :=
  ⟨rfl, hm.spares hc (by simp)⟩

theorem enqueue (c : Scene) (f : Fault) : c.Frozen (c.counted.enqueue f) := by
  obtain ⟨trail, he⟩ := c.counted.enqueue_eq f
  rw [he]
  exact of_same rfl rfl rfl rfl

/-- The active handler gives way. -/
theorem vacated (h : c.Steady) : c.Frozen c.vacated := by
  have habandoned : c.counted.Frozen c.counted.abandonHandler.2 := by
    cases ha : c.session.faults.active with
    | none =>
      have ha' : c.counted.session.faults.active = none := ha
      simp only [abandonHandler, ha']
      exact .refl _
    | some active =>
      have ha' : c.counted.session.faults.active = some active := ha
      have hmoves := (Engine.stop_calms (h.regular.sound.handler active ha) c.counted.stage).1.moves
      have hspared : c.counted.stage.Spares .model _ := hmoves.spares h.regular.roled (by simp)
      simp only [abandonHandler, ha']
      exact ⟨rfl, hspared.trans (.of_same rfl rfl rfl)⟩
  have hcounted : c.Frozen c.counted := of_same rfl rfl rfl rfl
  refine (hcounted.trans habandoned).trans ?_
  unfold Scene.vacated recordDropped
  split <;> exact of_same rfl rfl rfl rfl

theorem escalate {next : Option Target} (he : c.escalate active = (next, c')) : c.Frozen c' := by
  obtain rfl : (c.escalate active).2 = c' := congrArg Prod.snd he
  exact of_same rfl rfl rfl rfl

end Frozen

/-! ## Handlers -/

/-- The model gives its task up. -/
def deprived (c : Scene) : Scene :=
  c.withEngine (c.session.engine.retireCurrent c.stage).1
    (c.session.engine.retireCurrent c.stage).2

theorem deprived_of_no_task (h : c.session.engine.task? = none) : c.deprived = c := by
  rw [deprived, Engine.retireCurrent_of_no_task h]
  rfl

/-- Taking the task of the model away leaves the lane of the handlers alone. -/
theorem deprived_spares (h : c.Regular) : c.stage.Spares .handler c.deprived.stage :=
  (Engine.retireCurrent_calms h.sound.model c.stage).1.moves.spares h.roled (by simp)

/-- The model is frozen but for one moment, at which it gives its task up. -/
def GivesUp (c c' : Scene) : Prop :=
  ∃ m : Scene, c.Frozen m ∧ m.stage.Spares .handler m.deprived.stage ∧ m.deprived.Frozen c'

/-- The model is frozen throughout, unless its task was taken away. -/
def Stays (c : Scene) (taken : Bool) (c' : Scene) : Prop :=
  match taken with
  | false => c.Frozen c'
  | true => c.GivesUp c'

theorem Frozen.stays {taken : Bool} (h : c.Frozen c₁) (h' : c₁.Stays taken c') :
    c.Stays taken c' := by
  cases taken with
  | false => exact h.trans h'
  | true =>
    obtain ⟨m, hbefore, hspared, hafter⟩ := h'
    exact ⟨m, h.trans hbefore, hspared, hafter⟩

/-- A task that was taken away cannot be taken away once more. -/
theorem GivesUp.stays {taken : Bool} (h : c.GivesUp c₁) (h' : c₁.Stays taken c') :
    c.GivesUp c' := by
  obtain ⟨m, hbefore, hspared, hafter⟩ := h
  cases taken with
  | false => exact ⟨m, hbefore, hspared, hafter.trans h'⟩
  | true =>
    obtain ⟨m', hbefore', _, hafter'⟩ := h'
    have hnone : m'.session.engine.task? = none := by
      rw [hbefore'.engine, hafter.engine]
      exact retireCurrent_task? ..
    rw [deprived_of_no_task hnone] at hafter'
    exact ⟨m, hbefore, hspared, (hafter.trans hbefore').trans hafter'⟩

/-- A model that has given its task up holds nothing. -/
theorem GivesUp.free (h : c.GivesUp c') (hc : c'.Tended) :
    c'.session.core.slots.holdings .model = [] := by
  obtain ⟨m, _, _, hafter⟩ := h
  have hnone : c'.session.engine.course.task? = none := by
    rw [hafter.engine]
    exact retireCurrent_task? ..
  rw [Course.task?_eq, Option.map_eq_none_iff] at hnone
  have hheld := hc.model.holds
  rw [hnone] at hheld
  exact hheld

theorem ready_eq (c : Scene) (target : Target) (f : Fault) (d : Disposition) :
    c.ready target f d =
      if target.response.replaces = true then (c.record (.fault f d target.response.name)).deprived
      else c.record (.fault f d target.response.name) :=
  rfl

/-- A handler starts in its own lane. -/
theorem startHandler_frozen (hc : (c.ready target f d).session.core.slots.Roled) :
    (c.ready target f d).Frozen (c.startHandler target f d).2 := by
  have hinstalled : (c.ready target f d).Frozen ((c.ready target f d).install target f) :=
    .of_same rfl rfl rfl rfl
  rw [startHandler_eq]
  split
  · rename_i hstart
    have hmoves := (Engine.start_calms (Engine.new_runsIn ..) hstart).1.moves
    exact hinstalled.trans (.withHandler hc hmoves)
  · exact hinstalled

theorem startHandler_stays {taken : Bool} (h : c.Steady) (hj : (Job.activate target f d).Ready c)
    (hafter : (c.startHandler target f d).2.Stays taken c') :
    c.Stays (target.response.replaces || taken) c' := by
  obtain ⟨hc, _, hd⟩ := hj
  have hready := h.regular.turns (ready_turns (f := f) hc.1 hc.2 target hd)
  have hstarted := startHandler_frozen hready.roled
  have hrecorded : c.Frozen (c.record (.fault f d target.response.name)) := .of_same rfl rfl rfl rfl
  have hregular : (c.record (.fault f d target.response.name)).Regular :=
    h.regular.of_same (h.regular.sound.of_same rfl rfl id) rfl rfl
  rw [ready_eq] at hstarted
  cases hreplaces : target.response.replaces with
  | false =>
    rw [if_neg (by simp [hreplaces])] at hstarted
    exact (hrecorded.trans hstarted).stays hafter
  | true =>
    rw [if_pos hreplaces] at hstarted
    have hgiven : c.GivesUp (c.startHandler target f d).2 :=
      ⟨_, hrecorded, deprived_spares hregular, hstarted⟩
    exact hgiven.stays hafter

end Scene

/-! ## Performances -/

def Upshot.isResolved : Upshot → Bool
  | .resolved .. => true
  | _ => false

/-- A job that is done while the model is suspended. -/
def Job.Suspended (c : Scene) : Job → Prop
  | .deliver _ | .route _ => c.session.faults.active.isSome = true
  | .activate .. | .settle .. => True
  | .drain _ => False

/-- Whether a handler was started that takes the task of the model away. -/
def Chain.replacing (chains : List Chain) : Bool :=
  (chains.flatMap Chain.targets).any fun target => target.response.replaces

namespace Scene

variable {c c' : Scene} {j : Job} {chains : List Chain} {o : Outcome}

/-- As long as no handler resolves its fault and the session goes on, the model is frozen. -/
theorem Performs.stays (h : c.Performs j chains o c') (hc : c.Steady) (hj : j.Ready c)
    (hsuspended : j.Suspended c) (hr : c'.session.isRunning = true)
    (hunresolved : ∀ chain ∈ chains, chain.upshot.isResolved = false) :
    c.Stays (Chain.replacing chains) c' := by
  induction h with
  | ignore => exact Frozen.refl _
  | @rootEnds c e => exact absurd hr (Status.not_running (halt_terminal (c.hear e) _))
  | model _ _ ha =>
    rw [Job.Suspended, ha] at hsuspended
    cases hsuspended
  | @handler c c' e active _ engine s _ _ hr₀ _ ha hs _ ih =>
    obtain ⟨hheard, hready⟩ := hc.handler hr₀ ha hs
    have hhear : c.Frozen (c.hear e) := .of_same rfl rfl rfl rfl
    have hmoves := (Engine.onEvent_reports (hc.regular.sound.handler active ha) e
      (c.hear e).stage).1.moves
    rw [hs] at hmoves
    have hacted : (c.hear e).Frozen ((c.hear e).withHandler active engine s) :=
      .withHandler hc.regular.roled hmoves
    exact (hhear.trans hacted).stays (ih hheard hready trivial hr hunresolved)
  | fault hr₀ _ ih => exact ih hc hr₀ hsuspended hr hunresolved
  | unhandled => exact Frozen.of_same rfl rfl rfl rfl
  | queue => exact Frozen.enqueue ..
  | preempt hd _ ih =>
    obtain ⟨hvacated, hready⟩ := hc.preempt hj hd
    exact (Frozen.vacated hc).stays (ih hvacated hready trivial hr hunresolved)
  | trigger hd =>
    rw [Job.Suspended, decide_activate hd] at hsuspended
    cases hsuspended
  | @activate c c₁ _ target f d _ _ _ _ _ _ hs ha _ ih =>
    obtain ⟨hstarted, hready⟩ := hc.activate hj hs ha
    obtain ⟨hbegun, hothers⟩ := List.forall_mem_cons.mp hunresolved
    have hlater := ih hstarted hready trivial hr (List.forall_mem_cons.mpr ⟨hbegun, hothers⟩)
    obtain rfl : (c.startHandler target f d).2 = c₁ := congrArg Prod.snd hs
    exact startHandler_stays hc hj hlater
  | wait | advance => exact Frozen.refl _
  | resolve => exact nomatch hunresolved _ List.mem_cons_self
  | escalate he _ ih =>
    obtain ⟨hescalated, hfree⟩ := hc.escalate hj he
    have hready := ih hescalated ⟨hfree, escalate_found he, .inl rfl⟩ trivial hr hunresolved
    exact (Frozen.escalate he).stays hready
  | exhaust => exact absurd hr (Status.not_running (exhaust_terminal ..))
  | rest | stop | draw => exact hsuspended.elim

end Scene

/-- While a handler is active, a delivery that no handler resolves its fault in and that the session
outlives leaves the model as it is: its engine does not move, and what its lane holds is neither
stopped nor detached, whatever the handlers do and however many of them take over. Only if one of
the responses that are activated replaces the task of the model, this task is given up, once, and
nothing else is. -/
theorem model_frozen_in_suspension {s : Session} (h : s.Reachable) {p : Plan} {signal : Signal}
    (ha : s.faults.active.isSome = true) {chains : List Chain} {o : Outcome} {c : Scene}
    (hperforms : Scene.Performs ⟨s, p⟩ (.deliver signal) chains o c)
    (hr : c.session.isRunning = true)
    (hunresolved : ∀ chain ∈ chains, chain.upshot.isResolved = false) :
    (o, c) = Scene.deliver ⟨s, p⟩ signal ∧
      (Chain.replacing chains = false → Scene.Frozen ⟨s, p⟩ c ∧
        (s.core.catalog.Modest → ∀ key handle, (key, handle) ∈ s.core.slots.holdings .model →
          Plan.Keeps s.root.id ⟨handle, key.role s.core.slots.rolePrefix⟩ p c.plan)) ∧
      (Chain.replacing chains = true → Scene.GivesUp ⟨s, p⟩ c ∧
        c.session.core.slots.holdings .model = []) := by
  have hsteady := h.steady p
  have hstays := hperforms.stays hsteady trivial ha hr hunresolved
  have hafter := (hperforms.steady hsteady trivial).1
  refine ⟨hperforms.deliver_eq, fun hkept => ?_, fun htaken => ?_⟩
  · rw [hkept] at hstays
    have hfrozen : Scene.Frozen ⟨s, p⟩ c := hstays
    exact ⟨hfrozen, fun hcat _ _ hheld => hfrozen.keeps hcat hheld⟩
  · rw [htaken] at hstays
    have hgiven : Scene.GivesUp ⟨s, p⟩ c := hstays
    exact ⟨hgiven, hgiven.free hafter.tended⟩

/-! ## A sample -/

/-- A fault that preempts has one handler started for it, as long as that one goes on. -/
theorem Scene.Performs.of_preempted {c : Scene} {f : Fault} {target : Target}
    (hr : c.session.isRunning = true)
    (hd : c.session.faults.decide f (c.session.inReach f) = .preempt target)
    (hadvanced : (c.vacated.startHandler target f .preempted).1 = .advanced) :
    ∃ o, c.Performs (.deliver (.fault f)) [⟨f, [target], .running⟩] o
      (c.vacated.startHandler target f .preempted).2 := by
  have hs : c.vacated.startHandler target f .preempted =
      (.advanced, (c.vacated.startHandler target f .preempted).2) := Prod.ext hadvanced rfl
  obtain ⟨_, _, active, ha, rfl⟩ := startHandler_ok hs
  exact ⟨_, .fault hr (.preempt hd (.activate hs ha .advance))⟩

/-- A response whose handler does the task that a variable holds. -/
def Response.borrowing : Response :=
  ⟨"borrow", .category "low",
    .script ⟨"borrower", [],
      [⟨"share", some (.held "mine"), none, .leaf (.emitted .root ⟨"go"⟩), []⟩]⟩, 0, .direct, .goOn,
    false⟩

/-- A session whose variable holds the task of its model. -/
def Session.borrowed : Session :=
  ((Session.new "session" .sample
    (.script ⟨"patrol", [⟨"mine", none, .constant (.task ⟨⟨"task-2"⟩, "Worker"⟩)⟩],
      [.run "go" (.builder "worker" .empty)]⟩)).withCatalog
        (Catalog.empty.addBuilder "worker" (.started "Worker"))).withTable
          (.ofResponses "mending" [.borrowing, .ranked "high" 10])

theorem Session.borrowed_unstarted : Session.borrowed.Unstarted .sample :=
  .withTable _ (.withCatalog _ (.new ..))

/-- The task of the model is in the hands of the handler, too. -/
def Scene.borrowed : Scene :=
  Scene.after ⟨.borrowed, .sample⟩ [.start, .deliver (.fault (.ranked "low"))]

/-- The handler that shares the task of the model is displaced. The task goes on for the model. -/
theorem model_frozen_in_suspension_borrowed :
    let c := Scene.borrowed
    let c' := (c.deliver (.fault (.ranked "high"))).2
    c.session.core.slots.children = [⟨⟨"task-2"⟩, "Worker"⟩, ⟨⟨"task-2"⟩, "Worker"⟩] ∧
      c'.session.core.slots.children = [⟨⟨"task-2"⟩, "Worker"⟩] ∧
      c'.session.engine = c.session.engine ∧ c'.plan.wasStopped ⟨"task-2"⟩ = false := by
  intro c c'
  have hr : c.session.isRunning = true := by decide
  have hd : c.session.faults.decide (.ranked "high") (c.session.inReach (.ranked "high")) =
      .preempt ⟨0, 1, .ranked "high" 10⟩ := by decide
  have hadvanced : (c.vacated.startHandler ⟨0, 1, .ranked "high" 10⟩ (.ranked "high")
      .preempted).1 = .advanced := by decide
  obtain ⟨o, hperforms⟩ := Scene.Performs.of_preempted hr hd hadvanced
  have hreachable : c.session.Reachable :=
    (Session.Reachable.unstarted Session.borrowed_unstarted).after .sample _
  have hafter : (c.vacated.startHandler ⟨0, 1, .ranked "high" 10⟩ (.ranked "high")
      .preempted).2.session.isRunning = true := by decide
  obtain ⟨hdelivered, hkept, _⟩ := model_frozen_in_suspension hreachable (by decide) hperforms
    hafter (by simp [Upshot.isResolved])
  obtain ⟨hfrozen, hkeeps⟩ := hkept rfl
  have hc' : c' = (c.vacated.startHandler ⟨0, 1, .ranked "high" 10⟩ (.ranked "high")
      .preempted).2 := (congrArg Prod.snd hdelivered).symm
  have hcat : c.session.core.catalog = Session.sample.core.catalog := rfl
  have hstopped := (hkeeps (hcat ▸ Session.sample_modest) ⟨.model, "go", 1⟩ ⟨⟨"task-2"⟩, "Worker"⟩
    (by decide)).stopped
  refine ⟨by decide, by decide, ?_, ?_⟩
  · rw [hc']
    exact hfrozen.engine
  · have hbefore : c.plan.wasStopped ⟨"task-2"⟩ = false := by decide
    rw [hc']
    exact hstopped.trans hbefore

end Conductor
