import Conductor.Proofs.Session.Steadiness
import Conductor.Proofs.Session.StepOutputs

/-!
Going on without the task. A response may take the task of the suspended model away and let it go on
once its handler has finished. The script then enters its instruction again, with a new task for it,
unless the entry guard stopped being true in the meantime: in that case it passes the instruction
over, although it was in it before.
-/

namespace Conductor

namespace Scene

variable {c c' d : Scene} {active : ActiveHandler} {completion : Completion} {r : ScriptRun}
  {i : Instruction} {source : Source}

/-- The model is a script in an instruction whose task the response of a handler took away, and
which it is to go on with. -/
structure Bereft (c : Scene) (active : ActiveHandler) (r : ScriptRun) (i : Instruction)
    (source : Source) : Prop where
  engine : c.session.engine = .script r
  inStep : r.step.isSome = true
  entered : r.script.instructions[r.pc]? = some i
  source : i.source = some source
  response : ∃ response, c.session.faults.response? active.table active.entry = some response ∧
    response.replaces = true ∧ response.resumption = .goOn

/-- The script is in its instruction again, or could not be for want of a task, by what came of the
source of the instruction. -/
inductive Reentered (r : ScriptRun) (i : Instruction) (c : Scene) :
    Except Error Handle → Outcome → Prop where
  | renewed {task : Handle} {r' : ScriptRun} {since : Nat} : c.session.isRunning = true →
    c.session.engine = .script r' → r'.pc = r.pc → r'.path = r.path →
    r'.step = some ⟨r.entering.key i.label, some task, since⟩ → Reentered r i c (.ok task) .advanced
  | failed {e : Error} : c.session.status = .failed e → c.session.engine.course.path = r.path →
    Reentered r i c (.error e) (.failed e)

theorem Reentered.of_ok {result : Except Error Handle} {o : Outcome} {task : Handle}
    (h : Reentered r i c result o) (hresult : result = .ok task) :
    o = .advanced ∧ c.session.isRunning = true ∧ ∃ r' since, c.session.engine = .script r' ∧
      r'.pc = r.pc ∧ r'.path = r.path ∧
      r'.step = some ⟨r.entering.key i.label, some task, since⟩ := by
  cases h with
  | renewed hr he hpc hpath hstep =>
    cases hresult
    exact ⟨rfl, hr, _, _, he, hpc, hpath, hstep⟩
  | failed => cases hresult

/-- The script is about to enter its instruction again. -/
structure Ripe (c : Scene) (r : ScriptRun) (i : Instruction) : Prop where
  running : c.session.isRunning = true
  idle : c.session.faults.active = none
  sound : c.Sound
  engine : c.session.engine = .script r
  status : r.status = .running
  replaced : r.replaced = true
  stays : i.exitGuard ≠ .always
  free : c.session.core.slots.holdings .model = []

theorem Bereft.ripe (hb : c.Bereft active r i source) (hc : c.Steady)
    (hj : (Job.settle active (.finished completion)).Ready c) :
    (c.resolved active completion).Ripe r i := by
  obtain ⟨hr, ha, hstep⟩ := hj
  obtain ⟨response, hresponse, hreplaces, _⟩ := hb.response
  obtain ⟨step, hin⟩ := Option.isSome_iff_exists.mp hb.inStep
  have hposed := hc.regular.posed
  have htends := hc.tended.model
  have hnone := hc.relieved active response ha hresponse hreplaces
  rw [hb.engine] at hposed htends hnone
  have htask : step.task = none := by
    have htask : r.toCourse.task? = none := hnone
    rwa [Course.task?, hin] at htask
  obtain ⟨i', hi, hstays, htaken⟩ := hposed step hin
  obtain rfl := Option.some.inj (hi.symm.trans hb.entered)
  have hreplaced : r.replaced = true := by
    have hsource : i'.source.isSome = true := Option.isSome_of_eq_some hb.source
    rcases htaken hsource with hkept | hreplaced
    · rw [htask] at hkept
      cases hkept
    · exact hreplaced
  refine ⟨hr, endHandler_active c active .resolved, ?_, hb.engine, ?_, hreplaced, hstays, ?_⟩
  · exact .of_no_handler hr hc.regular.sound.model (endHandler_active ..)
  · by_contra hstopped
    cases hin.symm.trans (htends.rest hstopped)
  · exact htends.free_of_lost (Bool.or_eq_true_iff.mpr (.inl hreplaced))

theorem fail_path (c : Scene) (error : Error) :
    (c.fail error).2.session.engine.course.path = c.session.engine.course.path := by
  obtain ⟨g, hg, he⟩ := fail_eq c error
  rw [he, map, hg.engine, retireEverything_eq, withEngine_engine, cleared_engine, Engine.stop,
    Engine.withCourse_course]
  rfl

/-- The session goes on the way its script enters the instruction. -/
theorem Bereft.resolve_eq (hb : c.Bereft active r i source)
    (hripe : (c.resolved active completion).Ripe r i) {p : Progress} {r' : ScriptRun}
    {s' : Stage} (h : r.enter (c.resolved active completion).stage = (p, r', s')) :
    c.resolve active completion =
      ((c.resolved active completion).withEngine (.script r') s').settleModel p := by
  obtain ⟨response, hresponse, _, hgoOn⟩ := hb.response
  have hresponse' : (c.resolved active completion).session.faults.response? active.table
      active.entry = some response := by
    rw [← hresponse]
    exact Dispatch.response?_congr (endHandler_responses c active .resolved) ..
  have hresume : r.resume (c.resolved active completion).stage = (p, r', s') := by
    rw [ScriptRun.resume_replaced hripe.status hripe.replaced, h]
  have hrun : (c.resolved active completion).runModel Engine.resume =
      (p, (c.resolved active completion).withEngine (.script r') s') := by
    unfold runModel
    rw [hripe.engine]
    show ((r.resume (c.resolved active completion).stage).1,
      (c.resolved active completion).withEngine
        (.script (r.resume (c.resolved active completion).stage).2.1)
        (r.resume (c.resolved active completion).stage).2.2) = _
    rw [hresume]
  rw [Scene.resolve_eq, resumptionOf_goOn hresponse' hgoOn, hrun]

/-- Where the entry guard still holds, the instruction is entered again. -/
theorem Bereft.reenters (hb : c.Bereft active r i source)
    (hripe : (c.resolved active completion).Ripe r i)
    (hmay : (r.mayEnter i (c.resolved active completion).stage).1 = true) :
    Reentered r i (c.resolve active completion).2
      ((r.mayEnter i (c.resolved active completion).stage).2.resolve (r.entering.key i.label)
        source).1
      (c.resolve active completion).1 := by
  have henter := ScriptRun.enter_resolves hb.entered hb.source hripe.stays hmay
  cases hres : (r.mayEnter i (c.resolved active completion).stage).2.resolve
      (r.entering.key i.label) source with
  | mk result s₁ =>
    cases result with
    | ok task =>
      simp only [hres] at henter
      rw [hb.resolve_eq hripe henter]
      exact .renewed hripe.running rfl rfl rfl rfl
    | error e =>
      simp only [hres, ScriptRun.fail] at henter
      rw [hb.resolve_eq hripe henter]
      exact .failed rfl (fail_path ..)

/-- Where it does not hold any longer, the instruction is passed over. -/
theorem Bereft.skips (hb : c.Bereft active r i source)
    (hripe : (c.resolved active completion).Ripe r i)
    (hmay : (r.mayEnter i (c.resolved active completion).stage).1 = false) :
    r.path ++ [.skipped r.pc i.label] <+:
      (c.resolve active completion).2.session.engine.course.path := by
  obtain ⟨p, r', s', henter⟩ : ∃ p r' s',
      r.enter (c.resolved active completion).stage = (p, r', s') := ⟨_, _, _, rfl⟩
  have hruns : r.RunsIn .model := hripe.sound.script hripe.engine
  obtain ⟨_, hruns'⟩ := ScriptRun.enter_calms hruns henter
  have hacted : ((c.resolved active completion).withEngine (.script r') s').Sound :=
    .of_no_handler hripe.running hruns' hripe.idle
  rw [hb.resolve_eq hripe henter]
  exact (ScriptRun.enter_skips hb.entered hmay henter).trans
    (settleModel_quiet hacted hripe.idle p).path

end Scene

/-- When a handler has resolved its fault, in the course of whatever delivery, and the model is a
script in an instruction whose task the response took away, the instruction is entered again under a
key of its own exactly if its entry guard is true then. It gets what its source comes to, or the
session fails with the error of the source. If the guard is not true any longer, the instruction is
put on record as skipped. -/
theorem reentry_unless_guarded {s : Session} (h : s.Reachable) {p : Plan} {signal : Signal}
    {chains : List Chain} {o : Outcome} {c d : Scene}
    (hperforms : Scene.Performs ⟨s, p⟩ (.deliver signal) chains o c) {chain : Chain}
    (hchain : chain ∈ chains) {active : ActiveHandler} {completion : Completion}
    (hresolved : chain.upshot = .resolved d active completion) {r : ScriptRun} {i : Instruction}
    {source : Source} (hbereft : d.Bereft active r i source) :
    let stage := (d.resolved active completion).stage
    stage.slots.isLive (r.entering.key i.label) = false ∧
      ((r.mayEnter i stage).1 = true →
        Scene.Reentered r i (d.resolve active completion).2
          ((r.mayEnter i stage).2.resolve (r.entering.key i.label) source).1
          (d.resolve active completion).1) ∧
      ((r.mayEnter i stage).1 = false →
        r.path ++ [.skipped r.pc i.label] <+:
          (d.resolve active completion).2.session.engine.course.path) := by
  intro stage
  have hsteady := (hperforms.steady (h.steady p) trivial).2 chain hchain
  rw [hresolved] at hsteady
  have hripe := hbereft.ripe hsteady.1 hsteady.2
  refine ⟨Slots.not_live_of_free ?_, hbereft.reenters hripe, hbereft.skips hripe⟩
  have hlane : r.lane = .model := (hripe.sound.script hripe.engine).home
  show stage.slots.holdings r.lane = []
  rw [hlane]
  exact hripe.free

/-! ## A sample -/

/-- An event at which the active handler finishes. -/
theorem Scene.Performs.of_finished {c c' : Scene} {e : Event} {active : ActiveHandler}
    {completion : Completion} {chains : List Chain} {o : Outcome} (h : c.Survives e)
    (ha : c.session.faults.active = some active)
    (hfinished : (active.engine.onEvent e (c.hear e).stage).1 = .finished completion)
    (hsettled : (c.heeded active e).Performs
      (.settle { active with engine := (active.engine.onEvent e (c.hear e).stage).2.1 }
        (.finished completion)) chains o c') : c.Performs (.deliver (.event e)) chains o c' :=
  .handler h.1 h.2 ha (Prod.ext hfinished rfl) hsettled

/-- An instruction that is entered in one mode only. -/
def Instruction.guarded : Instruction :=
  ⟨"go", some (.builder "worker" .empty), some (.leaf (.equals "mode" (.text "on"))), .on .success,
    []⟩

/-- An instruction that sets the mode. -/
def Instruction.setting (mode : String) : Instruction :=
  ⟨"pause", none, none, .leaf (.emitted .root ⟨"go"⟩), [.assign ⟨"mode", .constant (.text mode)⟩]⟩

/-- A response that takes the task away and whose handler sets the mode. -/
def Response.setting (mode : String) : Response :=
  ⟨"mend", .any, .script ⟨"mender", [], [.setting mode]⟩, 0, .direct, .goOn, true⟩

def Script.guarded : Script :=
  ⟨"patrol", [⟨"mode", none, .constant (.text "on")⟩], [.guarded]⟩

def Session.guarded (mode : String) : Session :=
  ((Session.new "session" .sample (.script .guarded)).withCatalog
    (Catalog.empty.addBuilder "worker" (.started "Worker"))).withTable
      (.ofResponses "mending" [.setting mode])

/-- The session while its handler waits. -/
def Scene.guarded (mode : String) : Scene :=
  Scene.after ⟨.guarded mode, .sample⟩ [.start, .deliver (.fault .ofTask)]

theorem Scene.guarded_reachable (mode : String) : (Scene.guarded mode).session.Reachable :=
  (Session.Reachable.unstarted (.withTable _ (.withCatalog _ (.new ..)))).after .sample _

/-- The run of the script without its task. -/
def ScriptRun.guarded : ScriptRun where
  toCourse := { Course.idle .model 1 with
    status := .running
    step := some ⟨⟨.model, "go", 1⟩, none, 0⟩
    activation := 1
    replaced := true }
  script := .guarded
  pc := 0

def ActiveHandler.setting (mode : String) : ActiveHandler where
  table := 0
  entry := 0
  priority := 0
  fault := .ofTask
  engine := .script
    { Course.idle .handler 2 with
      status := .running
      step := some ⟨⟨.handler, "pause", 1⟩, none, 0⟩
      activation := 1
      script := ⟨"mender", [], [.setting mode]⟩
      pc := 0 }

def Completion.setting : Completion :=
  ⟨"mender", .scriptEnd 1, .nominal, [.advanced 0 "pause" none false]⟩

/-- The scene in which the handler has finished, as the root was told to go on. -/
def Scene.set (mode : String) : Scene := (Scene.guarded mode).heeded (.setting mode) .go

/-- The handler in that scene. -/
def ActiveHandler.set (mode : String) : ActiveHandler :=
  { ActiveHandler.setting mode with
    engine := ((ActiveHandler.setting mode).engine.onEvent .go
      ((Scene.guarded mode).hear .go).stage).2.1 }

theorem Scene.guarded_performs {mode : String} (h : mode = "on" ∨ mode = "off") :
    ∃ o c, (Scene.guarded mode).Performs (.deliver (.event .go))
      [⟨.ofTask, [], .resolved (.set mode) (.set mode) .setting⟩] o c := by
  have hready : (Scene.guarded mode).session.isRunning = true ∧
      ¬ (Event.go.task = (Scene.guarded mode).session.root.id ∧
        Event.go.name.isTerminal = true) ∧
      (Scene.guarded mode).session.faults.active = some (.setting mode) ∧
      ((ActiveHandler.setting mode).engine.onEvent .go
        ((Scene.guarded mode).hear .go).stage).1 = .finished .setting ∧
      ((Scene.set mode).resolve (.set mode) .setting).2.session.faults.pending = [] := by
    rcases h with rfl | rfl <;> decide
  obtain ⟨hr, he, ha, hfinished, hrest⟩ := hready
  have hset : (Scene.set mode).Performs (.settle (.set mode) (.finished .setting))
      [⟨.ofTask, [], .resolved (.set mode) (.set mode) .setting⟩] _ _ :=
    .resolve (.rest (.inr hrest))
  exact ⟨_, _, .of_finished ⟨hr, he⟩ ha hfinished hset⟩

theorem Scene.set_bereft {mode : String} (h : mode = "on" ∨ mode = "off") :
    (Scene.set mode).Bereft (.set mode) .guarded .guarded (.builder "worker" .empty) := by
  have hresponse : (Scene.set mode).session.engine = .script .guarded ∧
      (Scene.set mode).session.faults.response? 0 0 = some (.setting mode) := by
    rcases h with rfl | rfl <;> decide
  exact ⟨hresponse.1, rfl, rfl, rfl, _, hresponse.2, rfl, rfl⟩

theorem reentry_unless_guarded_on :
    (ScriptRun.guarded.mayEnter .guarded
        ((Scene.set "on").resolved (.set "on") .setting).stage).1 = true ∧
      ((Scene.set "on").resolve (.set "on") .setting).1 = .advanced ∧
      ((Scene.set "on").resolve (.set "on") .setting).2.session.isRunning = true ∧
      ∃ r' since, ((Scene.set "on").resolve (.set "on") .setting).2.session.engine = .script r' ∧
        r'.pc = ScriptRun.guarded.pc ∧ r'.path = ScriptRun.guarded.path ∧
        r'.step = some ⟨⟨.model, "go", 2⟩, some ⟨⟨"task-3"⟩, "Worker"⟩, since⟩ := by
  obtain ⟨o, c, hperforms⟩ := Scene.guarded_performs (.inl rfl)
  have hmay : (ScriptRun.guarded.mayEnter .guarded
      ((Scene.set "on").resolved (.set "on") .setting).stage).1 = true := by decide
  have htask : ((ScriptRun.guarded.mayEnter .guarded
      ((Scene.set "on").resolved (.set "on") .setting).stage).2.resolve
        (ScriptRun.guarded.entering.key Instruction.guarded.label)
        (.builder "worker" .empty)).1 = .ok ⟨⟨"task-3"⟩, "Worker"⟩ := by decide
  obtain ⟨_, hreenters, _⟩ := reentry_unless_guarded (Scene.guarded_reachable "on") hperforms
    List.mem_cons_self rfl (Scene.set_bereft (.inl rfl))
  obtain ⟨ho, hr, r', since, he, hpc, hpath, hstep⟩ := (hreenters hmay).of_ok htask
  exact ⟨hmay, ho, hr, r', since, he, hpc, hpath, hstep⟩

/-- The handler has set another mode. The script is not given a task again: it is told to have
skipped the instruction that it had entered, and the session is over. -/
theorem reentry_skips :
    let d := Scene.set "off"
    (Scene.guarded "off").session.Reachable ∧
      (∃ chains o c, (Scene.guarded "off").Performs (.deliver (.event .go)) chains o c ∧
        ∃ chain ∈ chains, chain.upshot = .resolved d (.set "off") .setting) ∧
      d.Bereft (.set "off") .guarded .guarded (.builder "worker" .empty) ∧
      (d.resolve (.set "off") .setting).2.session.engine.course.path = [.skipped 0 "go"] ∧
      ((Scene.guarded "off").deliver (.event .go)).1 =
        .succeeded ⟨"patrol", .scriptEnd 1, .nominal, [.skipped 0 "go"]⟩ := by
  intro d
  obtain ⟨o, c, hperforms⟩ := Scene.guarded_performs (.inr rfl)
  exact ⟨Scene.guarded_reachable "off",
    ⟨_, o, c, hperforms, _, List.mem_cons_self, rfl⟩, Scene.set_bereft (.inr rfl), by decide,
    by decide⟩

end Conductor
