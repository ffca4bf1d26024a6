import Conductor.Proofs.Plan.Progress
import Conductor.Proofs.Session.Turns

/-!
Calls: what is done with a session from outside. It is set up before its start; afterwards it is
started, told of signals and stopped in any order, while its plan goes on between the calls.
-/

namespace Conductor

/-- The sessions for a root task that are set up and were not started yet. -/
inductive Session.Unstarted (root : Handle) : Session → Prop where
  | new (id : String) (model : Model) : Unstarted root (.new id root model)
  | withConfig {s : Session} (config : Config) :
    Unstarted root s → Unstarted root (s.withConfig config)
  | withCatalog {s : Session} (catalog : Catalog) :
    Unstarted root s → Unstarted root (s.withCatalog catalog)
  | withTable {s : Session} (t : ResponseTable) : Unstarted root s → Unstarted root (s.withTable t)

/-- What holds of a session before its start. -/
structure Session.Fresh (root : Handle) (s : Session) : Prop where
  status : s.status = .created
  active : s.faults.active = none
  pending : s.faults.pending = []
  slots : s.core.slots = .new root s.config.rolePrefix
  trail : s.core.trail = .empty s.config.keepsTrail
  engine : s.engine.RunsIn .model

theorem Session.Unstarted.fresh {root : Handle} {s : Session} (h : s.Unstarted root) :
    s.Fresh root := by
  induction h with
  | new id model => exact ⟨rfl, rfl, rfl, rfl, rfl, Engine.new_runsIn ..⟩
  | withConfig config _ ih =>
    refine ⟨ih.status, ih.active, ?_, ?_, rfl, ih.engine⟩
    · simp [Session.withConfig, Dispatch.setLimit, ih.pending]
    · simp [Session.withConfig, Session.root, ih.slots, Slots.new]
  | withCatalog catalog _ ih =>
    exact ⟨ih.status, ih.active, ih.pending, ih.slots, ih.trail, ih.engine⟩
  | withTable t _ ih =>
    exact ⟨ih.status, ih.active, ih.pending, ih.slots, ih.trail, ih.engine⟩

inductive Call where
  | start
  | deliver (signal : Signal)
  | stop
  /-- The plan is acted on, by whomever. -/
  | drive (c : Ground.Command)

namespace Scene

/-- What a command makes of the plan. One that is refused changes nothing. -/
def drive (c : Scene) (command : Ground.Command) : Scene :=
  match (⟨c.plan, []⟩ : Ground).perform command with
  | .ok (_, g) => { c with plan := g.plan }
  | .error _ => c

def call (c : Scene) : Call → Scene
  | .start => c.start.2
  | .deliver signal => (c.deliver signal).2
  | .stop => c.stop.2
  | .drive command => c.drive command

/-- The scene after calls in turn. -/
def after (c : Scene) (calls : List Call) : Scene := calls.foldl call c

theorem after_append (c : Scene) (calls calls' : List Call) :
    c.after (calls ++ calls') = (c.after calls).after calls' :=
  List.foldl_append

variable {c : Scene}

theorem deliver_turns (signal : Signal) :
    ∃ hand, Turns ⟨hand, c⟩ ⟨none, (c.deliver signal).2⟩ := by
  cases signal with
  | event e => exact ⟨none, handleEvent_turns c e⟩
  | fault f =>
    by_cases hr : c.session.isRunning = true
    · exact ⟨some f, handleFault_turns hr f⟩
    · have hignored : c.handleFault f = (.ignored, c) := by simp [handleFault, hr]
      refine ⟨none, ?_⟩
      show Turns ⟨none, c⟩ ⟨none, (c.handleFault f).2⟩
      rw [hignored]

theorem drive_session (c : Scene) (command : Ground.Command) :
    (c.drive command).session = c.session := by
  unfold drive
  split <;> rfl

/-- Nothing is left to do with a session that has ended. -/
theorem call_of_terminal (h : c.session.status.isTerminal = true) (call : Call) :
    (c.call call).session = c.session := by
  have hr := Status.not_running h
  have hc : c.session.status ≠ .created := by
    intro hc
    simp [hc, Status.isTerminal] at h
  cases call with
  | start => simp [Scene.call, start, hc]
  | deliver signal =>
    cases signal with
    | event e => simp [Scene.call, deliver, handleEvent, Session.isRunning, hr]
    | fault f => simp [Scene.call, deliver, handleFault, Session.isRunning, hr]
  | stop =>
    simp only [Scene.call, stop]
    split
    · rename_i hs
      simp [hs, Status.isRunning] at hr
    · exact absurd (by assumption) hc
    · rfl
  | drive command => exact drive_session c command

theorem after_of_terminal (h : c.session.status.isTerminal = true) (calls : List Call) :
    (c.after calls).session = c.session := by
  unfold after
  induction calls generalizing c with
  | nil => rfl
  | cons call rest ih =>
    have hcall := call_of_terminal h call
    exact (ih (by rw [hcall]; exact h)).trans hcall

/-! ## What holds throughout -/

/-- The engines keep to their lanes, and unless the session is running no handler is active and no
fault waits. -/
structure Sound (c : Scene) : Prop where
  model : c.session.engine.RunsIn .model
  handler : ∀ active, c.session.faults.active = some active → active.engine.RunsIn .handler
  rest : c.session.isRunning = false →
    c.session.faults.active = none ∧ c.session.faults.pending = []

namespace Sound

theorem of_same {c' : Scene} (h : c.Sound) (he : c'.session.engine = c.session.engine)
    (hf : c'.session.faults = c.session.faults)
    (hr : c'.session.isRunning = false → c.session.isRunning = false) : c'.Sound where
  model := by
    rw [he]
    exact h.model
  handler := by
    rw [hf]
    exact h.handler
  rest := by
    rw [hf]
    exact fun hn => h.rest (hr hn)

theorem of_running (hr : c.session.isRunning = true) (hm : c.session.engine.RunsIn .model)
    (hh : ∀ active, c.session.faults.active = some active → active.engine.RunsIn .handler) :
    c.Sound :=
  ⟨hm, hh, fun hn => absurd (hr.symm.trans hn) (by simp)⟩

theorem of_no_handler (hr : c.session.isRunning = true) (hm : c.session.engine.RunsIn .model)
    (ha : c.session.faults.active = none) : c.Sound :=
  of_running hr hm fun active h => absurd (ha.symm.trans h) (by simp)

theorem abandonHandler (h : c.Sound) {active : ActiveHandler}
    (ha : c.session.faults.active = some active) :
    c.abandonHandler.2.session.engine.RunsIn .model := by
  simp only [Scene.abandonHandler, ha]
  exact h.model

theorem cleared (h : c.Sound) : c.cleared.session.engine.RunsIn .model := by
  unfold Scene.cleared
  cases ha : c.session.faults.active with
  | none =>
    simp only [Scene.abandonHandler, ha]
    exact h.model
  | some active => exact h.abandonHandler ha

theorem closing (h : c.Sound) {c' : Scene} {g : Session → Session} (hg : Closing g)
    (hc : c' = c.retireEverything.map g) : c'.Sound := by
  obtain ⟨ha, hp⟩ := cleared_faults c
  have hm : c.retireEverything.session.engine.RunsIn .model := by
    rw [retireEverything_eq]
    exact (Engine.stop_calms h.cleared c.cleared.stage).2
  rw [hc]
  refine ⟨?_, ?_, fun _ => ?_⟩
  · simpa only [map, hg.engine] using hm
  · simp [map, hg.faults, ha]
  · simp only [map, hg.faults]
    exact ⟨ha, hp⟩

theorem turn {m m' : Moment} (ht : Turn m m') (h : m.scene.Sound) : m'.scene.Sound := by
  cases ht with
  | begin => exact h.of_same rfl rfl fun hn => nomatch hn
  | cancel hcreated => exact h.of_same rfl rfl fun _ => congrArg Status.isRunning hcreated
  | hear e hr => exact h.of_same rfl rfl id
  | count f hr => exact h.of_same rfl rfl id
  | model hr ha hact => exact of_no_handler hr (hact.moves h.model).2 ha
  | handler hr ha hact =>
    refine of_running hr h.model fun active ho => ?_
    obtain rfl := Option.some.inj ho
    exact (hact.moves (h.handler _ ha)).2
  | unhandled hr => exact h.of_same rfl rfl id
  | @queue c f hr ha =>
    obtain ⟨trail, he⟩ := c.enqueue_eq f
    obtain ⟨pending, hq⟩ := c.session.faults.enqueue_eq f
    show (c.enqueue f).Sound
    rw [he]
    refine of_running hr h.model fun active ho => h.handler active ?_
    rw [← ho]
    exact (congrArg Dispatch.active hq).symm
  | draw hr ha hp => exact of_no_handler hr h.model ha
  | @displace c f active hr ha =>
    obtain ⟨_, hstatus, hnone⟩ := abandonHandler_ok ha
    exact of_no_handler (Session.running_of_same hstatus hr) (h.abandonHandler ha) hnone
  | trigger response hr hd => exact h.of_same rfl rfl id
  | install target hr ha =>
    refine of_running hr h.model fun active ho => ?_
    obtain rfl := Option.some.inj ho
    exact Engine.new_runsIn ..
  | resolve completion hr ha => exact of_no_handler hr h.model (endHandler_active ..)
  | escalate hr ha => exact of_no_handler hr h.model (endHandler_active ..)
  | @exhaust c f hr =>
    obtain ⟨g, hg, he⟩ := fail_eq (c.giveUp f) .escalationExhausted
    have hgiven : (c.giveUp f).Sound := h.of_same rfl rfl id
    exact hgiven.closing hg he
  | succeed completion hr =>
    obtain ⟨g, hg, he⟩ := succeed_eq _ completion
    exact h.closing hg he
  | fail error hr =>
    obtain ⟨g, hg, he⟩ := fail_eq _ error
    exact h.closing hg he
  | halt reason hr =>
    obtain ⟨g, hg, he⟩ := halt_eq _ reason
    exact h.closing hg he

theorem drive (h : c.Sound) (command : Ground.Command) : (c.drive command).Sound := by
  have hsame := c.drive_session command
  exact h.of_same (by rw [hsame]) (by rw [hsame]) fun hn => by rwa [hsame] at hn

end Sound

theorem Sound.call (h : c.Sound) (call : Call) : (c.call call).Sound := by
  have hturns : ∀ {m m'}, Turns m m' → m.scene = c → m'.scene.Sound := by
    intro m m' ht hm
    exact ht.preserves (P := fun m => m.scene.Sound) (fun _ _ ht h => h.turn ht) (hm ▸ h)
  cases call with
  | start =>
    exact hturns (start_turns fun hc => (h.rest (congrArg Status.isRunning hc)).1) rfl
  | deliver signal =>
    obtain ⟨hand, ht⟩ := deliver_turns (c := c) signal
    exact hturns ht rfl
  | stop => exact hturns (stop_turns c) rfl
  | drive command => exact h.drive command

/-- What every call keeps is kept by calls in turn. -/
theorem after_keeps {P : Scene → Prop} (hcall : ∀ c call, P c → P (Scene.call c call)) (hc : P c)
    (calls : List Call) : P (c.after calls) := by
  unfold after
  induction calls generalizing c with
  | nil => exact hc
  | cons call rest ih => exact ih (hcall c call hc)

theorem Sound.after (h : c.Sound) (calls : List Call) : (c.after calls).Sound :=
  after_keeps (fun _ call h => h.call call) h calls

/-- What every turn keeps, whatever is in hand, is kept by every call. -/
theorem call_preserves {P : Scene → Prop}
    (hturn : ∀ m m', Turn m m' → m.scene.Sound → P m.scene → P m'.scene) (hs : c.Sound)
    (call : Call) (hdrive : ∀ command, call = .drive command → P c → P (c.drive command))
    (hc : P c) : P (c.call call) ∧ (c.call call).Sound := by
  have hturns : ∀ {m m'}, Turns m m' → m.scene = c → P m'.scene ∧ m'.scene.Sound := by
    intro m m' h hm
    refine h.preserves (P := fun m => P m.scene ∧ m.scene.Sound) ?_ (hm ▸ ⟨hc, hs⟩)
    exact fun m m' ht h => ⟨hturn m m' ht h.2 h.1, h.2.turn ht⟩
  cases call with
  | start =>
    exact hturns (start_turns fun h => (hs.rest (congrArg Status.isRunning h)).1) rfl
  | deliver signal =>
    obtain ⟨hand, h⟩ := deliver_turns (c := c) signal
    exact hturns h rfl
  | stop => exact hturns (stop_turns c) rfl
  | drive command => exact ⟨hdrive command rfl hc, hs.drive command⟩

/-- What every turn keeps, and every command that is given, is kept by calls in turn. -/
theorem after_preserves {P : Scene → Prop}
    (hturn : ∀ m m', Turn m m' → m.scene.Sound → P m.scene → P m'.scene) (hs : c.Sound)
    {calls : List Call}
    (hdrive : ∀ d command, .drive command ∈ calls → P d → P (Scene.drive d command))
    (hc : P c) : P (c.after calls) := by
  unfold after
  induction calls generalizing c with
  | nil => exact hc
  | cons call rest ih =>
    obtain ⟨h, hs'⟩ := call_preserves hturn hs call
      (fun command he => hdrive c command (he ▸ List.mem_cons_self)) hc
    exact ih hs' (fun d command hmem => hdrive d command (List.mem_cons_of_mem _ hmem)) h

end Scene

theorem Session.Fresh.sound {root : Handle} {s : Session} (h : s.Fresh root) (p : Plan) :
    Scene.Sound ⟨s, p⟩ :=
  ⟨h.engine, by simp [h.active], fun _ => ⟨h.active, h.pending⟩⟩

/-- The sessions that calls lead to, whatever plan each of them is made on. The changes of their
interests may be taken in between. -/
inductive Session.Reachable : Session → Prop where
  | unstarted {root : Handle} {s : Session} : s.Unstarted root → Reachable s
  | call {s : Session} (p : Plan) (call : Call) :
    Reachable s → Reachable (Scene.call ⟨s, p⟩ call).session
  | taken {s : Session} : Reachable s → Reachable s.takeInterestChanges.2

theorem Session.Reachable.sound {s : Session} (h : s.Reachable) (p : Plan) :
    Scene.Sound ⟨s, p⟩ := by
  induction h generalizing p with
  | unstarted hs => exact hs.fresh.sound p
  | call q call _ ih => exact ((ih q).call call).of_same rfl rfl fun hn => hn
  | taken _ ih => exact (ih p).of_same rfl rfl fun hn => hn

theorem Session.Reachable.after {s : Session} (h : s.Reachable) (p : Plan) (calls : List Call) :
    (Scene.after ⟨s, p⟩ calls).session.Reachable :=
  Scene.after_keeps (P := fun c => c.session.Reachable) (fun c call h => .call c.plan call h) h calls

/-! ## A sample -/

/-- A plan with one root. -/
def Plan.sample : Plan := (Plan.empty.addRoot "Mission").2

def Handle.sample : Handle := (Plan.empty.addRoot "Mission").1

theorem Plan.sample_reachable : Plan.sample.Reachable :=
  .perform (g := ⟨.empty, []⟩) (c := .addRoot "Mission") .empty rfl

/-- A session that does one task. -/
def Session.sample : Session :=
  (Session.new "session" .sample
    (.script ⟨"patrol", [], [.run "go" (.builder "worker" .empty)]⟩)).withCatalog
      (Catalog.empty.addBuilder "worker" (.started "Worker"))

theorem Session.sample_unstarted : Session.sample.Unstarted .sample := .withCatalog _ (.new ..)

theorem Session.sample_modest : Session.sample.core.catalog.Modest :=
  .addBuilder .empty "worker" (Builder.started_modest "Worker")

/-- A handler that waits for the root to be told to go on. -/
def ResponseTable.sample : ResponseTable :=
  .ofResponses "mending"
    [⟨"mend", .any, .script ⟨"mender", [], [.wait "pause" (.leaf (.emitted .root ⟨"go"⟩))]⟩, 0,
      .direct, .goOn, false⟩]

def Fault.sample : Fault := ⟨Handle.sample.id, "jam", "", []⟩

def Event.go : Event := ⟨Handle.sample.id, ⟨"go"⟩, none⟩

end Conductor
