import Conductor.Proofs.Engine.Leaving
import Conductor.Proofs.Session.Nesting
import Conductor.Proofs.Session.Queue
import Conductor.Proofs.Session.Suspension

/-!
What the steps of a script put out. An instruction that is left on an event of its own task puts out
what the event carried. One that is left when its script goes on after a fault puts out nothing,
even if such an event came in the meantime: the event is on record, but nothing looks it up.
-/

namespace Conductor

namespace Scene

variable {c d : Scene} {f : Fault} {target : Target} {e : Event} {r : ScriptRun} {i : Instruction}
  {step : ActiveStep} {t : Handle}

/-- Nothing was put out from one scene to the other, and the model was not started anew. -/
structure Quiet (c d : Scene) : Prop where
  outputs : d.session.core.scopes.outputs = c.session.core.scopes.outputs
  path : c.session.engine.course.path <+: d.session.engine.course.path

theorem cleared_of_no_handler (ha : c.session.faults.active = none) :
    c.cleared = c.withPending [] := by
  unfold cleared abandonHandler
  rw [ha]

theorem closing_quiet (hs : c.Sound) (ha : c.session.faults.active = none)
    {g : Session → Session} (hg : Closing g) : c.Quiet (c.retireEverything.map g) := by
  have hstop := (Engine.stop_calms hs.cleared c.cleared.stage).1.outputs
  have honward := (Engine.stop_onward c.cleared.session.engine c.cleared.stage).path
  rw [retireEverything_eq]
  refine ⟨?_, ?_⟩
  · simp only [map, hg.scopes, withEngine_core, Stage.retireAll_scopes]
    rw [hstop, cleared_of_no_handler ha]
    rfl
  · simp only [map, hg.engine, withEngine_engine]
    rw [cleared_of_no_handler ha] at honward ⊢
    exact honward

theorem settleModel_quiet (hs : c.Sound) (ha : c.session.faults.active = none) (p : Progress) :
    c.Quiet (c.settleModel p).2 := by
  obtain he | ⟨g, hg, he⟩ := settleModel_eq c p
  · rw [he]
    exact ⟨rfl, List.prefix_refl _⟩
  · rw [he]
    exact closing_quiet hs ha hg

/-- The response of a target takes up a fault: its handler waits, leaves the model its task and is
to let the model go on. -/
structure Suspends (c : Scene) (f : Fault) (target : Target) : Prop where
  decided : c.session.faults.decide f (c.session.inReach f) = .activate target
  leaves : target.response.replaces = false
  resumes : target.response.resumption = .goOn
  waits : (c.counted.startHandler target f .triggered).1.isTerminal = false

theorem deliver_suspends (hr : c.session.isRunning = true) (h : c.Suspends f target) :
    (c.deliver (.fault f)).2 = (c.counted.startHandler target f .triggered).2 := by
  show (c.handleFault f).2 = _
  rw [handleFault_eq hr, h.decided]
  exact handle_started h.waits

theorem Sound.script (h : c.Sound) (hm : c.session.engine = .script r) : r.RunsIn .model := by
  have hrun := h.model
  rw [hm] at hrun
  exact hrun

theorem Nested.script (h : c.Nested) (hm : c.session.engine = .script r) : r.depth = 1 := by
  have hdepth := h.model
  rw [hm] at hdepth
  exact hdepth

/-- An event of the task of an instruction that lets it be left, while no handler runs. -/
theorem deliver_puts_out (hs : c.Sound) (hn : c.Nested) (hr : c.session.isRunning = true)
    (ha : c.session.faults.active = none) (hm : c.session.engine = .script r)
    (hw : r.Waits i step t) (ht : t.id ≠ c.session.root.id) (he : e.task = t.id)
    (hp : r.Passes i step (c.hear e).stage) :
    (∀ v, e.payload = some v →
      (c.deliver (.event e)).2.session.core.scopes.outputAt? r.depth i.label = some v) ∧
      ((r.leave i step (some e) (c.hear e).stage).1 = .ok () →
        r.path ++ [r.mark i step (c.hear e).stage] <+:
          (c.deliver (.event e)).2.session.engine.course.path) := by
  have hend : ¬ (e.task = c.session.root.id ∧ e.name.isTerminal = true) :=
    fun h => ht (he ▸ h.1)
  have hdepth : r.depth < (c.hear e).stage.scopes.depth := by
    have hscopes := hn.scopes
    rw [nesting, ha] at hscopes
    rw [hn.script hm]
    show 1 < c.session.core.scopes.depth
    rw [hscopes]
    decide
  cases hcheck : r.check (some e) (c.hear e).stage with
  | mk p rest =>
    obtain ⟨r', s'⟩ := rest
    obtain ⟨houtputs, hpath⟩ := ScriptRun.check_leaves (hs.script hm) hw hp hcheck
    obtain ⟨_, hrun'⟩ := ScriptRun.check_reports (hs.script hm) hcheck
    have hact : c.session.engine.onEvent e (c.hear e).stage = (p, .script r', s') := by
      rw [hm]
      show ((r.onEvent e (c.hear e).stage).1, Engine.script (r.onEvent e (c.hear e).stage).2.1,
        (r.onEvent e (c.hear e).stage).2.2) = _
      rw [ScriptRun.onEvent_waits hw, hcheck]
    have hd : (c.deliver (.event e)).2 =
        (((c.hear e).withEngine (.script r') s').settleModel p).2 :=
      congrArg Prod.snd (handleEvent_model hr ha hend hact)
    have hquiet := settleModel_quiet (c := (c.hear e).withEngine (.script r') s')
      (.of_no_handler hr hrun' ha) ha p
    rw [← hd] at hquiet
    refine ⟨fun v hv => ?_, fun hok => (hpath hok).trans hquiet.path⟩
    have hall := hquiet.outputs.trans houtputs
    rw [Scopes.outputAt?_congr (congrArg (·[r.depth]?) hall)]
    exact ScriptRun.leave_output hw he hv hdepth

/-! ## Suspension -/

theorem ready_of_leaves (h : target.response.replaces = false) (d : Disposition) :
    c.ready target f d = c.record (.fault f d target.response.name) := by
  unfold ready suspend
  rw [h]
  rfl

/-- A handler that leaves the model its task leaves the model as it is and opens a scope. -/
theorem startHandler_leaves (h : target.response.replaces = false) (d : Disposition) :
    (c.startHandler target f d).2.session.engine = c.session.engine ∧
      (c.startHandler target f d).2.session.core.scopes.outputs =
        c.session.core.scopes.outputs ++ [.empty] := by
  rw [startHandler_eq, ready_of_leaves h]
  split
  · rename_i p e s hstart
    obtain ⟨hcalm, _⟩ := Engine.start_calms (Engine.new_runsIn ..) hstart
    exact ⟨rfl, hcalm.outputs.trans (Scopes.push_outputs ..)⟩
  · exact ⟨rfl, Scopes.push_outputs ..⟩

/-- What a handler puts out it puts out in its own scope. -/
theorem heeded_outputs (hs : c.Sound) (hn : c.Nested) {active : ActiveHandler}
    (ha : c.session.faults.active = some active) (e : Event) :
    (c.heeded active e).session.core.scopes.outputs[1]? = c.session.core.scopes.outputs[1]? := by
  have hreports := (Engine.onEvent_reports (hs.handler active ha) e (c.hear e).stage).1
  refine hreports.outputs ?_
  rw [hn.handler active ha]
  decide

theorem hearing_outputs (hs : c.Sound) (hn : c.Nested) {events : List Event}
    (h : c.AbsorbsAll events) :
    (c.hearing events).session.core.scopes.outputs[1]? = c.session.core.scopes.outputs[1]? := by
  induction events generalizing c with
  | nil => rfl
  | cons e rest ih =>
    obtain ⟨active, ha, hd⟩ := h.1.deliver
    have hheeded := heeded_outputs hs hn ha e
    rw [← hd] at hheeded
    have hs' : (c.deliver (.event e)).2.Sound := hs.call (.deliver (.event e))
    have hn' : (c.deliver (.event e)).2.Nested := hn.call hs (.deliver (.event e))
    rw [hearing_cons]
    exact (ih hs' hn' h.2).trans hheeded

/-- The scene in which the model is about to go on, because the active handler has finished on an
event. -/
def relieved (c : Scene) (active : ActiveHandler) (e : Event) (completion : Completion) : Scene :=
  (c.heeded active e).resolved
    { active with engine := (active.engine.onEvent e (c.hear e).stage).2.1 } completion

/-- Closing the scope of the handler leaves what the model put out. -/
theorem relieved_outputs (hs : c.Sound) (hn : c.Nested) {active : ActiveHandler}
    (ha : c.session.faults.active = some active) (e : Event) (completion : Completion) :
    (c.relieved active e completion).session.core.scopes.outputs[1]? =
      c.session.core.scopes.outputs[1]? := by
  have hmoves := (Engine.onEvent_reports (hs.handler active ha) e (c.hear e).stage).1.moves
  have hdepth : (c.heeded active e).session.core.scopes.depth = 3 := by
    have hscopes := hn.scopes
    rw [nesting, ha] at hscopes
    exact hmoves.depth.trans hscopes
  rw [← heeded_outputs hs hn ha e]
  show ((c.heeded active e).session.core.scopes.pop.2.outputs)[1]? = _
  rw [Scopes.pop_outputs, hdepth, if_pos (by decide), List.getElem?_dropLast,
    Scopes.length_outputs, hdepth]
  rfl

theorem resumptionOf_goOn {active : ActiveHandler} {response : Response}
    (h : c.session.faults.response? active.table active.entry = some response)
    (hgoOn : response.resumption = .goOn) : c.resumptionOf active = Engine.resume := by
  unfold resumptionOf
  rw [h, Option.map_some, hgoOn]

/-- A script goes on from its instruction without any event at hand. -/
theorem resume_quiet (hs : c.Sound) (hr : c.session.isRunning = true)
    (ha : c.session.faults.active = none) (hm : c.session.engine = .script r)
    (hw : r.Waits i step t) :
    let d := ((c.runModel Engine.resume).2.settleModel (c.runModel Engine.resume).1).2
    d.session.core.scopes.outputs = c.session.core.scopes.outputs ∧
      (r.Passes i step c.stage → (r.leave i step none c.stage).1 = .ok () →
        r.path ++ [r.mark i step c.stage] <+: d.session.engine.course.path) := by
  cases hcheck : r.check none c.stage with
  | mk p rest =>
    obtain ⟨r', s'⟩ := rest
    obtain ⟨hreports, hrun'⟩ := ScriptRun.check_reports (hs.script hm) hcheck
    have hrun : c.runModel Engine.resume = (p, c.withEngine (.script r') s') := by
      unfold runModel
      rw [hm]
      show ((r.resume c.stage).1,
        c.withEngine (.script (r.resume c.stage).2.1) (r.resume c.stage).2.2) = _
      rw [ScriptRun.resume_waits hw, hcheck]
    have hquiet := settleModel_quiet (c := c.withEngine (.script r') s')
      (.of_no_handler hr hrun' ha) ha p
    rw [hrun]
    refine ⟨hquiet.outputs.trans hreports.calms.outputs, fun hpasses hok => ?_⟩
    exact ((ScriptRun.check_leaves (hs.script hm) hw hpasses hcheck).2 hok).trans hquiet.path

theorem relieved_engine (c : Scene) (active : ActiveHandler) (e : Event)
    (completion : Completion) :
    (c.relieved active e completion).session.engine = c.session.engine := by
  rw [relieved, resolved_engine, heeded, withHandler_engine]
  rfl

theorem relieved_running (c : Scene) (active : ActiveHandler) (e : Event)
    (completion : Completion) :
    (c.relieved active e completion).session.isRunning = c.session.isRunning := by
  rw [Session.isRunning, relieved, resolved_status, heeded, withHandler_status]
  rfl

theorem relieved_active (c : Scene) (active : ActiveHandler) (e : Event)
    (completion : Completion) :
    (c.relieved active e completion).session.faults.active = none :=
  endHandler_active ..

theorem relieved_sound (hs : c.Sound) (hr : c.session.isRunning = true) (active : ActiveHandler)
    (e : Event) (completion : Completion) : (c.relieved active e completion).Sound := by
  refine .of_no_handler ?_ ?_ (relieved_active ..)
  · rw [relieved_running, hr]
  · rw [relieved_engine]
    exact hs.model

/-- When a handler finishes and no fault waits, the model goes on as the response says. -/
theorem deliver_relieved (hsurvives : c.Survives e) {active : ActiveHandler}
    (ha : c.session.faults.active = some active) {completion : Completion}
    (hfinished : (active.engine.onEvent e (c.hear e).stage).1 = .finished completion)
    (hp : c.session.faults.pending = []) {response : Response}
    (hresponse : c.session.faults.response? active.table active.entry = some response)
    (hgoOn : response.resumption = .goOn) :
    (c.deliver (.event e)).2 = (((c.relieved active e completion).runModel Engine.resume).2.settleModel
      ((c.relieved active e completion).runModel Engine.resume).1).2 := by
  have hresponses : (c.relieved active e completion).session.faults.responses =
      c.session.faults.responses := endHandler_responses (c.heeded active e) _ .resolved
  have hresume : (c.relieved active e completion).resumptionOf
      { active with engine := (active.engine.onEvent e (c.hear e).stage).2.1 } = Engine.resume := by
    refine resumptionOf_goOn (c := c.relieved active e completion) ?_ hgoOn
    rw [Dispatch.response?_eq, hresponses, ← Dispatch.response?_eq]
    exact hresponse
  rw [hsurvives.deliver_finished ha hfinished hp, resolve_eq]
  show (((c.relieved active e completion).runModel
    ((c.relieved active e completion).resumptionOf _)).2.settleModel
      ((c.relieved active e completion).runModel
        ((c.relieved active e completion).resumptionOf _)).1).2 = _
  rw [hresume]

/-- What is known of the scene in which a handler waits that left the model as it was. -/
structure Pauses (c a : Scene) (target : Target) : Prop where
  engine : a.session.engine = c.session.engine
  pending : a.session.faults.pending = c.session.faults.pending
  responses : a.session.faults.responses = c.session.faults.responses
  active : ∃ active, a.session.faults.active = some active ∧ active.table = target.table ∧
    active.entry = target.entry
  outputs : a.session.core.scopes.outputs = c.session.core.scopes.outputs ++ [.empty]

theorem Suspends.pauses (h : c.Suspends f target) (hr : c.session.isRunning = true) :
    c.Pauses (c.deliver (.fault f)).2 target := by
  rw [deliver_suspends hr h]
  cases hs : c.counted.startHandler target f .triggered with
  | mk p a =>
    obtain ⟨hengine, houtputs⟩ := startHandler_leaves (c := c.counted) (f := f) h.leaves .triggered
    rw [hs] at hengine houtputs
    obtain ⟨_, hpending, active, hactive, _⟩ := startHandler_ok hs
    obtain ⟨htable, hentry, _, hresponses⟩ := startHandler_target hs hactive
    exact ⟨hengine, hpending, hresponses, ⟨active, hactive, htable, hentry⟩, houtputs⟩

/-- The response of a target that was decided on is found where the target says. -/
theorem Suspends.response (h : c.Suspends f target) :
    c.session.faults.response? target.table target.entry = some target.response :=
  decide_found (.inl h.decided)

end Scene

/-- An event of the task of an instruction that lets the instruction be left while no handler runs
is put out with what it carries. If a handler runs in the meantime, whatever it hears of, the model
has put out when it goes on what it had put out before, and nothing under the label of the
instruction, although the instruction is left all the same. -/
theorem step_outputs_unless_suspended {root : Handle} {s : Session} (hs : s.Unstarted root)
    {p : Plan} {calls : List Call} {c : Scene} (hc : Scene.after ⟨s, p⟩ calls = c)
    (hr : c.session.isRunning = true) (ha : c.session.faults.active = none) {r : ScriptRun}
    {i : Instruction} {step : ActiveStep} {t : Handle} (hm : c.session.engine = .script r)
    (hw : r.Waits i step t) (ht : t.id ≠ c.session.root.id) :
    (∀ e : Event, e.task = t.id → r.Passes i step (c.hear e).stage →
      let d := (c.deliver (.event e)).2
      (∀ v, e.payload = some v →
        d.session.core.scopes.outputAt? r.depth i.label = some v) ∧
        ((r.leave i step (some e) (c.hear e).stage).1 = .ok () →
          r.path ++ [r.mark i step (c.hear e).stage] <+: d.session.engine.course.path)) ∧
      ∀ (f : Fault) (target : Target) (events : List Event) (e : Event) (active : ActiveHandler)
        (completion : Completion), c.Suspends f target →
        let a := (c.deliver (.fault f)).2
        let b := a.hearing events
        a.AbsorbsAll events → b.Survives e → b.session.faults.active = some active →
        (active.engine.onEvent e (b.hear e).stage).1 = .finished completion →
        let m := (b.relieved active e completion).stage
        let d := (b.deliver (.event e)).2
        (∀ label, d.session.core.scopes.outputAt? r.depth label =
          c.session.core.scopes.outputAt? r.depth label) ∧
          (r.Passes i step m → (r.leave i step none m).1 = .ok () →
            r.path ++ [r.mark i step m] <+: d.session.engine.course.path) := by
  have hkempt := (hs.kempt p).after calls
  have hnested := (hs.nested p).after (hs.fresh.sound p) calls
  rw [hc] at hkempt hnested
  have hsound := hkempt.sound
  refine ⟨fun e he hp => ?_, ?_⟩
  · exact Scene.deliver_puts_out hsound hnested hr ha hm hw ht he hp
  intro f target events e active completion hsuspends a b habsorbs hsurvives hactive hfinished m d
  have hpauses := hsuspends.pauses hr
  obtain ⟨first, hfirst, htable, hentry⟩ := hpauses.active
  have ha' : a.Sound := hsound.call (.deliver (.fault f))
  have hn' : a.Nested := hnested.call hsound (.deliver (.fault f))
  have hb : b.Sound := ha'.after _
  have hbn : b.Nested := hn'.after ha' _
  have hsince : a.Suspended b := (Scene.Suspended.refl hfirst).hearing habsorbs
  have hmodel : b.session.engine = .script r := (hsince.engine.trans hpauses.engine).trans hm
  have hpending : b.session.faults.pending = [] :=
    (hsince.pending.trans hpauses.pending).trans (hkempt.caught hr ha)
  have hresponse : b.session.faults.response? active.table active.entry =
      some target.response := by
    obtain ⟨htable', hentry'⟩ := hsince.active hfirst hactive
    have hresponses : b.session.faults.responses = c.session.faults.responses :=
      (congrArg (List.map ResponseTable.responses) hsince.tables).trans hpauses.responses
    rw [htable', hentry', htable, hentry, Dispatch.response?_eq, hresponses,
      ← Dispatch.response?_eq]
    exact hsuspends.response
  have hdelivered := Scene.deliver_relieved hsurvives hactive hfinished hpending hresponse
    hsuspends.resumes
  have hmodel' := (Scene.relieved_engine b active e completion).trans hmodel
  have hrunning := (Scene.relieved_running b active e completion).trans hsurvives.1
  obtain ⟨houtputs, hpath⟩ := Scene.resume_quiet (Scene.relieved_sound hb hsurvives.1 ..) hrunning
    (Scene.relieved_active ..) hmodel' hw
  rw [← hdelivered] at houtputs hpath
  refine ⟨fun label => Scopes.outputAt?_congr ?_ label, hpath⟩
  have hdepth : c.session.core.scopes.outputs.length = 2 := by
    have hscopes := hnested.scopes
    rw [Scene.nesting, ha] at hscopes
    rw [Scopes.length_outputs]
    exact hscopes
  rw [hnested.script hm, houtputs, Scene.relieved_outputs hb hbn hactive e completion,
    Scene.hearing_outputs ha' hn' habsorbs, hpauses.outputs]
  exact List.getElem?_append_left (by rw [hdepth]; decide)

/-! ## A sample -/

/-- An instruction whose task reports what it found. -/
def Instruction.noting : Instruction :=
  ⟨"go", some (.builder "worker" .empty), none, .on ⟨"done"⟩, []⟩

def Script.noting : Script :=
  ⟨"patrol", [], [.noting, .wait "pause" (.leaf (.emitted .root ⟨"end"⟩))]⟩

def Session.noting : Session :=
  ((Session.new "session" .sample (.script .noting)).withCatalog
    (Catalog.empty.addBuilder "worker" (.started "Worker"))).withTable .sample

theorem Session.noting_unstarted : Session.noting.Unstarted .sample :=
  .withTable _ (.withCatalog _ (.new ..))

def ActiveStep.noting : ActiveStep := ⟨⟨.model, "go", 1⟩, some ⟨Plan.idOf 2, "Worker"⟩, 0⟩

/-- The run of the script once its first instruction was entered. -/
def ScriptRun.noting : ScriptRun where
  toCourse := { Course.idle .model 1 with
    status := .running
    step := some .noting
    activation := 1 }
  script := .noting
  pc := 0

theorem ScriptRun.noting_waits :
    ScriptRun.noting.Waits .noting .noting ⟨Plan.idOf 2, "Worker"⟩ :=
  ⟨rfl, rfl, rfl, rfl, rfl⟩

def Event.done : Event := ⟨Plan.idOf 2, ⟨"done"⟩, some (.int 7)⟩

/-- The handler of the sample response, once it has started. -/
def ActiveHandler.pausing : ActiveHandler where
  table := 0
  entry := 0
  priority := 0
  fault := .sample
  engine := .script
    { Course.idle .handler 2 with
      status := .running
      step := some ⟨⟨.handler, "pause", 1⟩, none, 0⟩
      activation := 1
      script := ⟨"mender", [], [.wait "pause" (.leaf (.emitted .root ⟨"go"⟩))]⟩
      pc := 0 }

theorem step_outputs_unless_suspended_noting :
    let c := Scene.after ⟨.noting, .sample⟩ [.start]
    (c.deliver (.event .done)).2.session.core.scopes.outputAt? 1 "go" = some (.int 7) ∧
      (((c.deliver (.fault .sample)).2.hearing [.done]).deliver
        (.event .go)).2.session.core.scopes.outputAt? 1 "go" =
          c.session.core.scopes.outputAt? 1 "go" := by
  intro c
  have hc : Scene.after ⟨.noting, .sample⟩ [.start] = c := rfl
  have hr : c.session.isRunning = true := by decide
  have ha : c.session.faults.active = none := by decide
  have hm : c.session.engine = .script .noting := by decide
  have hp : ScriptRun.noting.Passes .noting .noting (c.hear .done).stage := by
    unfold ScriptRun.Passes
    decide
  obtain ⟨hdirect, hsuspended⟩ := step_outputs_unless_suspended Session.noting_unstarted
    hc hr ha hm ScriptRun.noting_waits (by decide)
  refine ⟨(hdirect .done rfl hp).1 (.int 7) rfl, ?_⟩
  have hsuspends : c.Suspends .sample ⟨0, 0, ⟨"mend", .any,
      .script ⟨"mender", [], [.wait "pause" (.leaf (.emitted .root ⟨"go"⟩))]⟩, 0, .direct, .goOn,
      false⟩⟩ := ⟨by decide, rfl, rfl, by decide⟩
  have habsorbs : (c.deliver (.fault .sample)).2.AbsorbsAll [.done] :=
    ⟨⟨⟨by decide, by decide⟩, .pausing, by decide, by decide⟩, trivial⟩
  let b := (c.deliver (.fault .sample)).2.hearing [.done]
  have hactive : b.session.faults.active = some .pausing := by decide
  have hfinished : (ActiveHandler.pausing.engine.onEvent .go (b.hear .go).stage).1 =
      .finished ⟨"mender", .scriptEnd 1, .nominal, [.advanced 0 "pause" none false]⟩ := by decide
  have hsurvives : b.Survives .go := ⟨by decide, by decide⟩
  obtain ⟨hkept, _⟩ := hsuspended .sample _ [.done] .go .pausing _ hsuspends habsorbs hsurvives
    hactive hfinished
  exact hkept "go"

/-- The task reports what it found while a fault is handled. The instruction is left when the
script goes on, as it is when no fault comes up, but what was found is not put out. -/
theorem step_output_lost_in_suspension :
    let c := Scene.after ⟨.noting, .sample⟩ [.start]
    let direct := c.after [.deliver (.event .done)]
    let suspended := c.after
      [.deliver (.fault .sample), .deliver (.event .done), .deliver (.event .go)]
    c.session.isRunning = true ∧ c.session.engine = .script .noting ∧
      ScriptRun.noting.Waits .noting .noting ⟨Event.done.task, "Worker"⟩ ∧
      direct.session.isRunning = true ∧ suspended.session.isRunning = true ∧
      suspended.session.faults.active = none ∧
      direct.session.engine.course.path = [.advanced 0 "go" (some Event.done.task) false] ∧
      suspended.session.engine.course.path = [.advanced 0 "go" (some Event.done.task) false] ∧
      direct.session.core.scopes.outputAt? 1 "go" = Event.done.payload ∧
      suspended.session.core.scopes.outputAt? 1 "go" = none := by
  intro c direct suspended
  have hc : c.session.isRunning = true ∧ c.session.engine = .script .noting := by decide
  refine ⟨hc.1, hc.2, ScriptRun.noting_waits, ?_⟩
  decide

end Conductor
