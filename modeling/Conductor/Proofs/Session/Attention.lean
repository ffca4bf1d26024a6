import Conductor.Proofs.Engine.Attention
import Conductor.Proofs.Session.Calls
import Conductor.Proofs.Session.Deliveries

/-!
What a session wants to hear. While it runs without a handler, its model attends to the guards of its
step, so an event that it does not want changes none of them, with two exceptions: the event may end
a task for which a guard waits in another way, and a guard may reach its task through an argument of
the root that was not there when the step last looked.
-/

namespace Conductor

namespace Scene

/-- While no handler runs, the normal model attends to the guards of its step. -/
def Attentive (c : Scene) : Prop :=
  c.session.isRunning = true → c.session.faults.active = none → c.session.engine.Attends c.stage

variable {c c' : Scene} {f : Fault}

namespace Attentive

theorem of_ended (h : c.session.status.isTerminal = true) : c.Attentive :=
  fun hr => absurd hr (Status.not_running h)

theorem of_handler (h : c.session.faults.active.isSome = true) : c.Attentive := by
  intro _ ha
  rw [ha] at h
  cases h

theorem of_same (h : c.Attentive) (hstatus : c'.session.status = c.session.status)
    (hactive : c'.session.faults.active = c.session.faults.active)
    (he : c'.session.engine = c.session.engine)
    (hscopes : c'.session.core.scopes = c.session.core.scopes)
    (hslots : c'.session.core.slots = c.session.core.slots)
    (hinterests : c'.session.core.interests = c.session.core.interests) : c'.Attentive := by
  intro hr ha
  have hr' : c.session.isRunning = true := by rwa [Session.isRunning, ← hstatus]
  have hattends := h hr' (hactive ▸ ha)
  rw [he]
  exact hattends.congr hscopes (congrArg (fun s : Slots => s.root.id) hslots) hinterests

theorem settleModel (h : c.Attentive) (p : Progress) : (c.settleModel p).2.Attentive := by
  cases p with
  | waiting | advanced => exact h
  | finished completion => exact of_ended (succeed_terminal c completion)
  | failed error => exact of_ended (fail_terminal c error)

theorem withEngine {e : Engine} {s : Stage} (h : e.Attends s) : (c.withEngine e s).Attentive :=
  fun _ _ => h

end Attentive

/-- A model that goes on after a fault attends to the step that it comes to. -/
theorem resolve_attentive (c : Scene) (active : ActiveHandler) (completion : Completion) :
    (c.resolve active completion).2.Attentive := by
  have hattends : ∀ (e : Engine) s,
      ((c.resolved active completion).resumptionOf active e s).2.1.Attends
        ((c.resolved active completion).resumptionOf active e s).2.2 := by
    intro e s
    rcases (c.resolved active completion).resumptionOf_eq active with h | h
    · rw [h]
      exact e.restart_attends s
    · rw [h]
      exact e.resume_attends s
  rw [resolve_eq]
  exact Attentive.settleModel (Attentive.withEngine (hattends _ _)) _

theorem engage_attentive (fuel : Nat) (c : Scene) (target : Target) (f : Fault) (d : Disposition) :
    (engage fuel c target f d).2.Attentive := by
  induction fuel generalizing c target d with
  | zero => exact .of_ended (exhaust_terminal c f)
  | succ fuel ih =>
    cases hs : c.startHandler target f d with
    | mk p c₁ =>
      obtain ⟨_, _, active, hactive, _⟩ := startHandler_ok hs
      simp only [engage, hs, hactive]
      cases p with
      | waiting | advanced => exact .of_handler (by simp [hactive])
      | finished completion => exact resolve_attentive _ _ _
      | failed error =>
        simp only
        split
        · exact ih _ _ _
        · exact .of_ended (exhaust_terminal _ f)

namespace Attentive

theorem route (h : c.Attentive) (f : Fault) : (c.route f).2.Attentive := by
  cases hd : c.session.faults.decide f (c.session.inReach f) with
  | unhandled =>
    rw [route_eq, hd]
    exact h.of_same rfl rfl rfl rfl rfl rfl
  | queue =>
    obtain ⟨active, ha⟩ := decide_displace (.inr hd)
    rw [route_eq, hd]
    refine of_handler ?_
    rw [enqueue_active]
    exact Option.isSome_of_mem ha
  | preempt target | activate target =>
    rw [route_eq, hd]
    exact engage_attentive _ _ _ _ _

theorem withPending (h : c.Attentive) (faults : List Fault) : (c.withPending faults).Attentive :=
  h.of_same rfl rfl rfl rfl rfl rfl

theorem drain (h : c.Attentive) (faults : List Fault) (outcome : Outcome) :
    (Scene.drain faults outcome c).2.Attentive :=
  drain_keeps (fun faults h => h.withPending faults) (fun f h => h.route f) h faults outcome

theorem conclude (h : c.Attentive) (handling : Handling) :
    (c.conclude handling).2.Attentive :=
  conclude_keeps (fun faults h => h.withPending faults) (fun f h => h.route f) h handling

end Attentive

theorem handle_attentive (c : Scene) (target : Target) (f : Fault) (d : Disposition) :
    ((c.handle target f d).2.conclude (c.handle target f d).1).2.Attentive :=
  Attentive.conclude (engage_attentive _ _ _ _ _) _

theorem settleHandler_attentive {active : ActiveHandler}
    (ha : c.session.faults.active = some active) (p : Progress) :
    (c.settleHandler active p).2.Attentive := by
  cases p with
  | waiting | advanced => exact .of_handler (Option.isSome_of_mem ha)
  | finished completion => exact (resolve_attentive c active completion).drain _ _
  | failed error =>
    simp only [settleHandler]
    split
    · exact handle_attentive _ _ _ _
    · exact .of_ended (exhaust_terminal ..)

theorem hear_attentive (h : c.Attentive) (e : Event) : (c.hear e).Attentive :=
  h.of_same rfl rfl rfl rfl rfl rfl

namespace Attentive

theorem handleEvent (h : c.Attentive) (e : Event) : (c.handleEvent e).2.Attentive := by
  cases hr : c.session.isRunning with
  | false =>
    rw [handleEvent_idle hr]
    exact h
  | true =>
    by_cases he : e.task = c.session.root.id ∧ e.name.isTerminal = true
    · rw [handleEvent_root hr he]
      exact .of_ended (halt_terminal ..)
    · cases ha : c.session.faults.active with
      | some active =>
        rw [handleEvent_handler hr ha he rfl]
        exact settleHandler_attentive rfl _
      | none =>
        rw [handleEvent_model hr ha he rfl]
        have hattends : c.session.engine.Attends (c.hear e).stage := hear_attentive h e hr ha
        exact settleModel (withEngine (hattends.onEvent e)) _

theorem handleFault (h : c.Attentive) (f : Fault) : (c.handleFault f).2.Attentive :=
  handleFault_keeps (fun faults h => h.withPending faults) (fun f h => h.route f) h f

theorem start (h : c.Attentive) : c.start.2.Attentive := by
  unfold Scene.start
  split
  · exact h
  extract_lets begun
  split
  · rename_i hs
    exact settleModel (withEngine (c := begun) (Engine.start_attends hs)) _
  · exact .of_ended (fail_terminal ..)

theorem stop (h : c.Attentive) : c.stop.2.Attentive := by
  unfold Scene.stop
  split
  · exact .of_ended (halt_terminal ..)
  · exact .of_ended rfl
  · exact h

theorem drive (h : c.Attentive) (command : Ground.Command) : (c.drive command).Attentive := by
  have hsame := c.drive_session command
  exact h.of_same (by rw [hsame]) (by rw [hsame]) (by rw [hsame]) (by rw [hsame]) (by rw [hsame])
    (by rw [hsame])

theorem call (h : c.Attentive) (call : Call) : (c.call call).Attentive := by
  cases call with
  | start => exact h.start
  | deliver signal =>
    cases signal with
    | event e => exact h.handleEvent e
    | fault f => exact h.handleFault f
  | stop => exact h.stop
  | drive command => exact h.drive command

theorem after (h : c.Attentive) (calls : List Call) : (c.after calls).Attentive :=
  after_keeps (fun _ call h => h.call call) h calls

end Attentive

end Scene

theorem Session.Unstarted.attentive {root : Handle} {s : Session} (h : s.Unstarted root)
    (p : Plan) : Scene.Attentive ⟨s, p⟩ := by
  intro hr
  have hcreated : s.status.isRunning = true := hr
  rw [h.fresh.status] at hcreated
  cases hcreated

/-- An event that a running session without a handler does not want leaves every guard of the active
step as it is, unless a leaf of the guard is ruled out by it or is open. -/
theorem unwanted_unless_ended {root : Handle} {s : Session} (hs : s.Unstarted root) {p : Plan}
    {calls : List Call} {c : Scene} (hc : Scene.after ⟨s, p⟩ calls = c)
    (hr : c.session.isRunning = true) (ha : c.session.faults.active = none) {step : ActiveStep}
    (hstep : c.session.engine.course.step = some step) {g : Guard}
    (hg : g ∈ c.session.engine.guards) {e : Event} (hw : c.session.wants (.event e) = false) :
    let v := (c.stage.view g (step.focus c.session.engine.course.last)).1
    g.denote (v.hear e) = g.denote v ∨
      ∃ ref event, .emitted ref event ∈ g.allLeaves ∧ v.task? ref = some e.task ∧
        (c.stage.Open ref ∨
          step.task.map Handle.id ≠ some e.task ∧ Leaf.RuledOut v e ref event) := by
  intro v
  have hattentive : c.Attentive := hc ▸ (hs.attentive p).after calls
  have hawaits := hattentive hr ha step hstep g hg
  have hinterests : c.stage.interests.wants e.task e.name = false := by
    rw [Session.wants, hr, Bool.true_and, Bool.or_eq_false_iff] at hw
    exact hw.2
  have hmissing : ∀ event,
      (c.stage.interests.lane c.session.engine.course.lane).contains (e.task, event) = true →
        e.name.implies event = false := by
    intro event hlane
    rw [← Bool.not_eq_true]
    intro himplies
    rw [Interests.wants_of_lane hlane himplies] at hinterests
    cases hinterests
  by_cases hsame : ∀ l ∈ g.allLeaves, l.decide (v.hear e) = l.decide v
  · left
    rw [g.denote_eq_weigh, g.denote_eq_weigh]
    exact g.weigh_congr hsame
  right
  simp only [Classical.not_forall] at hsame
  obtain ⟨l, hl, hchanged⟩ := hsame
  obtain h | ⟨ref, event, rfl, htask, h⟩ := l.decide_hear v e
  · exact absurd h hchanged
  refine ⟨ref, event, hl, htask, ?_⟩
  have hrefers : c.stage.refers? _ ref = some e.task :=
    (c.stage.view_task? (step.focus c.session.engine.course.last) hl).symm.trans htask
  rcases Stage.means_or_open hrefers with hmeans | hopen
  · right
    have hother := hmissing event (hawaits.leaves ref event hl e.task hmeans)
    rcases h with h | h
    · rw [h] at hother
      cases hother
    · refine ⟨fun hown => ?_, h⟩
      have hterminal : e.name ∈ EventName.terminals := by simpa [EventName.isTerminal] using h.ends
      have hnot := hmissing e.name (hawaits.ends e.task hown e.name hterminal)
      simp [EventName.implies] at hnot
  · exact .inl hopen

/-- A session that waits for the success of a task which it does not run itself. -/
def Session.watching : Session :=
  .new "session" .sample (.script ⟨"patrol",
    [⟨"probe", none, .constant (.task ⟨Plan.idOf 2, "Probe"⟩)⟩],
    [.wait "pause" (.leaf (.emitted (.held "probe") .success))]⟩)

theorem Session.watching_unstarted : Session.watching.Unstarted .sample := .new ..

/-- What happens to the task before the session is told of anything. -/
def Call.watching : List Call :=
  [.drive (.instantiate ⟨"Probe", .empty⟩), .drive (.start ⟨Plan.idOf 2, "Probe"⟩), .start]

def ActiveStep.watching : ActiveStep := ⟨⟨.model, "pause", 1⟩, none, 0⟩

def Guard.watching : Guard := .leaf (.emitted (.held "probe") .success)

/-- A mere sign of life is not wanted, and it makes no difference. -/
theorem unwanted_unless_ended_alive :
    let c := Scene.after ⟨.watching, .sample⟩ Call.watching
    let v := (c.stage.view .watching ⟨none, 0⟩).1
    let e : Event := ⟨Plan.idOf 2, ⟨"alive"⟩, none⟩
    c.session.wants (.event e) = false ∧ Guard.watching.denote (v.hear e) = .pending := by
  intro c v e
  have hc : Scene.after ⟨.watching, .sample⟩ Call.watching = c := rfl
  have hr : c.session.isRunning = true := by decide
  have ha : c.session.faults.active = none := by decide
  have hstep : c.session.engine.course.step = some .watching := by decide
  have hg : Guard.watching ∈ c.session.engine.guards := by decide
  have hw : c.session.wants (.event e) = false := by decide
  have hpending : Guard.watching.denote v = .pending := by decide
  refine ⟨hw, ?_⟩
  obtain h | ⟨ref, event, hl, _, hopen | ⟨_, hends⟩⟩ :=
    unwanted_unless_ended Session.watching_unstarted hc hr ha hstep hg hw
  · exact h.trans hpending
  · obtain ⟨name, rfl, hsettled⟩ := hopen
    have hname : Leaf.emitted (.held name) event ∈ Guard.watching.allLeaves := hl
    simp only [Guard.watching, Guard.allLeaves, List.mem_singleton] at hname
    cases hname
    exact absurd hsettled (by decide)
  · exact absurd hends.ends (by decide)

/-- The failure of the task is not wanted either, although it rules the guard out: told of it, the
session fails. -/
theorem end_unwanted :
    let c := Scene.after ⟨.watching, .sample⟩ Call.watching
    let v := (c.stage.view .watching ⟨none, 0⟩).1
    let e : Event := ⟨Plan.idOf 2, .failed, none⟩
    c.session.isRunning = true ∧ c.session.faults.active = none ∧
      c.session.engine.course.step = some .watching ∧
      Guard.watching ∈ c.session.engine.guards ∧ c.session.wants (.event e) = false ∧
      Guard.watching.denote v = .pending ∧ Guard.watching.denote (v.hear e) = .no ∧
      (c.deliver (.event e)).1 = .failed (.instructionFailed 0) := by
  intro c v e
  have hc : c.session.isRunning = true ∧ c.session.faults.active = none ∧
      c.session.engine.course.step = some .watching := by decide
  have hw : Guard.watching ∈ c.session.engine.guards ∧ c.session.wants (.event e) = false := by
    decide
  have hv : Guard.watching.denote v = .pending ∧ Guard.watching.denote (v.hear e) = .no := by decide
  have hd : (c.deliver (.event e)).1 = .failed (.instructionFailed 0) := by decide
  exact ⟨hc.1, hc.2.1, hc.2.2, hw.1, hw.2, hv.1, hv.2, hd⟩

end Conductor
