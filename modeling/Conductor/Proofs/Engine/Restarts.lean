import Conductor.Proofs.Engine.Entries
import Conductor.Proofs.Engine.MachinePath
import Conductor.Proofs.Engine.ScriptPath
import Conductor.Proofs.Stage.Twins

/-!
Restarts. An engine that starts again does what a new engine would do in its place. All that it keeps
is the number of the activation, and that it only uses to tell slots apart: engines that are begun with
different numbers take the same course, and differ in the numbers in the end.
-/

namespace Conductor

/-! ## Numbers -/

def ActiveStep.unnumbered (step : ActiveStep) : ActiveStep := { step with key := step.key.unnumbered }

def Course.unnumbered (c : Course) : Course :=
  { c with activation := 0, step := c.step.map ActiveStep.unnumbered }

/-- The engine without the numbers of its activations. -/
def Engine.unnumbered (e : Engine) : Engine := e.withCourse e.course.unnumbered

/-- What came of two engines on two stages is the same but for the numbers of activations. -/
structure Engine.Twins (t t' : Stage) (result result' : Progress × Engine × Stage) : Prop where
  progress : result'.1 = result.1
  engine : result'.2.1.unnumbered = result.2.1.unnumbered
  stage : Stage.Twins t t' result.2.2 result'.2.2

variable {lane : Lane} {t t' s s' : Stage} {key key' : SlotKey} {held : Option Handle}

/-- The engine with another number for its activation. -/
def Engine.numbered (e : Engine) (n : Nat) : Engine := e.withCourse { e.course with activation := n }

namespace Course

theorem subscribe_apart {c : Course} (hc : c.RunsIn lane) (guards : List Guard) :
    Stage.Apart fun s => ((), c.subscribe guards s) := by
  refine .of_moves lane (fun s f => congrArg ((), ·) (c.subscribe_fitted guards s f)) fun s => ?_
  have hcalms : s.Calms lane true (c.subscribe guards s) := subscribe_calms hc guards s
  exact hcalms.moves

/-- Courses that take the task of a step abreast take the same, under keys of their own. -/
theorem takeTask_abreast {c c' : Course} {label : String} (h : Stage.Abreast lane t t' s s')
    (hkeys : TwinKeys lane (c.key label) (c'.key label)) (source : Option Source) :
    (c'.takeTask label source s').1 = (c.takeTask label source s).1 ∧
      ∃ held, Stage.Paired lane t t' (c.key label) (c'.key label) held
          (c.takeTask label source s).2 (c'.takeTask label source s').2 ∧
        ∀ task, (c.takeTask label source s).1 = .ok task → held = task := by
  cases source with
  | none => exact ⟨rfl, none, .none h, fun task htask => Except.ok.inj htask⟩
  | some source =>
    obtain ⟨hresult, held, hpaired, hheld⟩ := h.resolve hkeys source
    refine ⟨congrArg (Except.map some) hresult, held, hpaired, fun task htask => ?_⟩
    obtain ⟨task', htask', rfl⟩ := Except.map_eq_ok htask
    exact hheld task' htask'

end Course

/-- Whatever their numbers are, runs come to their ends in the same way. -/
theorem Engine.conclude_twins {p : Progress} {status : EngineStatus} {record : Trail.Record}
    (e : Engine) (h : Stage.Paired e.course.lane t t' key key' held s s')
    (hkeys : TwinKeys e.course.lane key key') (n : Nat) :
    Engine.Twins t t'
      (p, e.withCourse (e.course.conclude status record s).1,
        (e.course.conclude status record s).2)
      (p, (e.numbered n).withCourse ((e.numbered n).course.conclude status record s').1,
        ((e.numbered n).course.conclude status record s').2) := by
  have hstage := ((h.retireLane hkeys).record record).twins
  cases e with
  | script r => exact ⟨rfl, rfl, hstage⟩
  | machine r => exact ⟨rfl, rfl, hstage⟩

/-! ## Scripts -/

namespace ScriptRun

/-- The run with another number for its activation. -/
def numbered (r : ScriptRun) (n : Nat) : ScriptRun := { r with activation := n }

variable {r : ScriptRun}

theorem mayEnter_apart (r : ScriptRun) (i : Instruction) : Stage.Apart (r.mayEnter i) := by
  refine .of_moves .model (r.mayEnter_fitted i) fun s => ?_
  have hcalms : s.Calms .model true (r.mayEnter i s).2 := mayEnter_calms rfl
  exact hcalms.moves

theorem exitActions_apart (focus : Focus) (task : Option Handle) (actions : List ExitAction) :
    Stage.Apart (exitActions focus task actions) := by
  refine .of_moves .model (exitActions_fitted focus task actions) fun s => ?_
  have hcalms : s.Calms .model true (exitActions focus task actions s).2 := exitActions_calms rfl
  exact hcalms.moves

theorem exit_standing (r : ScriptRun) (key : SlotKey) (task : Option Handle) (since : Nat)
    (i : Instruction) (s : Stage) : (r.standing key task since).exit i none s =
      match exitActions (ActiveStep.focus ⟨key, task, since⟩ r.last) task i.onExit s with
      | (.error e, s₁) => (.error e, r.vacant, s₁)
      | (.ok (), s₁) => (.ok (),
          r.leaving i.label ⟨key, task, since⟩ (Course.passedFailure ⟨key, task, since⟩ s.log),
          (s₁.retire key).recordTrail (.advanced r.pc i.label)) :=
  rfl

/-- A step that is left is left in the same way, whatever its number is. -/
theorem exit_paired (h : Stage.Paired r.lane t t' key key' held s s')
    (hkeys : TwinKeys r.lane key key') (n : Nat) (task : Option Handle) (since : Nat)
    (i : Instruction) :
    (∃ e u u', (r.standing key task since).exit i none s = (.error e, r.vacant, u) ∧
      ((r.numbered n).standing key' task since).exit i none s' =
        (.error e, r.vacant.numbered n, u') ∧ Stage.Paired r.lane t t' key key' held u u') ∨
    ∃ r₁ u u', r₁.lane = r.lane ∧ (r.standing key task since).exit i none s = (.ok (), r₁, u) ∧
      ((r.numbered n).standing key' task since).exit i none s' = (.ok (), r₁.numbered n, u') ∧
        Stage.Abreast r.lane t t' u u' := by
  have hlog := h.log
  obtain ⟨hresult, hpaired⟩ :=
    h.apart (exitActions_apart (ActiveStep.focus ⟨key, task, since⟩ r.last) task i.onExit)
  have hfocus : ActiveStep.focus ⟨key', task, since⟩ (r.numbered n).last =
    ActiveStep.focus ⟨key, task, since⟩ r.last := rfl
  rw [exit_standing, exit_standing, hfocus, hlog]
  rcases hleft : exitActions (ActiveStep.focus ⟨key, task, since⟩ r.last) task i.onExit s
    with ⟨result, u⟩
  rcases hleft' : exitActions (ActiveStep.focus ⟨key, task, since⟩ r.last) task i.onExit s'
    with ⟨result', u'⟩
  rw [hleft, hleft'] at hresult hpaired
  obtain rfl : result' = result := hresult
  cases result' with
  | error e => exact .inl ⟨e, u, u', rfl, rfl, hpaired⟩
  | ok _ =>
    let left := r.leaving i.label ⟨key, task, since⟩
      (Course.passedFailure ⟨key, task, since⟩ s.log)
    exact .inr ⟨left, _, _, rfl, rfl, rfl, (hpaired.retire hkeys).record _⟩

theorem enterFrom_cons (i : Instruction) (rest : List Instruction) (r : ScriptRun) (s : Stage) :
    enterFrom (i :: rest) r s = match r.entering.mayEnter i s with
      | (false, u) => enterFrom rest (r.entering.skip i u).1 (r.entering.skip i u).2
      | (true, u) =>
        match r.entering.takeTask i.label i.source u with
        | (.error e, u) => r.entering.fail e u
        | (.ok task, u) =>
          let r := r.entering.standing (r.entering.key i.label) task s.log.cursor
          if i.exitGuard = .always then
            match r.exit i none u with
            | (.error e, r, u) => r.fail e u
            | (.ok (), r, u) => enterFrom rest r u
          else (.advanced, r, r.subscribe [i.exitGuard] u) := by
  rw [enterFrom]
  rfl

/-- A run that begins again keeps the number of the activation and what was decided in its last step,
and the latter is forgotten when the first instruction is entered. -/
theorem beginning_enter (h : r.script.instructions ≠ []) (s : Stage) :
    r.beginning.enter s =
      ((ScriptRun.new r.script r.lane r.depth).beginning.numbered r.activation).enter s := by
  obtain ⟨i, rest, hsome⟩ := List.exists_cons_of_ne_nil h
  show enterFrom r.script.instructions _ s = enterFrom r.script.instructions _ s
  rw [hsome, enterFrom_cons, enterFrom_cons]
  rfl

/-- Whatever their numbers are, runs that enter instructions abreast go through the same. -/
theorem enterFrom_twins (rest : List Instruction) (h : Stage.Abreast r.lane t t' s s') (n : Nat) :
    Engine.Twins t t' (Engine.asScript (enterFrom rest r s))
      (Engine.asScript (enterFrom rest (r.numbered n) s')) := by
  induction rest generalizing r s s' n with
  | nil =>
    have hkeys : TwinKeys r.lane (r.key "") (r.key "") := ⟨rfl, rfl⟩
    exact Engine.conclude_twins (.script r) (.none h) hkeys n
  | cons i rest ih =>
    have hlog := h.log
    have hmay : (r.numbered n).entering.mayEnter i s' = r.entering.mayEnter i s' := rfl
    have hentering : (r.numbered n).entering = r.entering.numbered (n + 1) := rfl
    obtain ⟨hresult, hentered⟩ := h.apart (r.entering.mayEnter_apart i)
    rw [enterFrom_cons, enterFrom_cons, hmay, hlog]
    rcases hleft : r.entering.mayEnter i s with ⟨may, u⟩
    rcases hright : r.entering.mayEnter i s' with ⟨may', u'⟩
    rw [hleft, hright] at hresult hentered
    obtain rfl : may' = may := hresult
    cases may' with
    | false =>
      exact ih (r := (r.entering.skip i u).1) (hentered.record (.skipped r.pc i.label)) (n + 1)
    | true =>
      have hkeys : TwinKeys r.entering.lane (r.entering.key i.label)
        ((r.entering.numbered (n + 1)).key i.label) := ⟨rfl, rfl⟩
      obtain ⟨hresult, held, hpaired, hheld⟩ := Course.takeTask_abreast hentered hkeys i.source
      dsimp only at hresult hpaired hheld ⊢
      rw [hentering]
      rcases hleft : r.entering.takeTask i.label i.source u with ⟨result, v⟩
      rcases hright : (r.entering.numbered (n + 1)).takeTask i.label i.source u' with ⟨result', v'⟩
      rw [hleft, hright] at hresult hpaired
      rw [hleft] at hheld
      obtain rfl : result' = result := hresult
      cases result' with
      | error e => exact Engine.conclude_twins (.script r.entering) hpaired hkeys (n + 1)
      | ok task =>
        obtain rfl := hheld task rfl
        dsimp only
        by_cases halways : i.exitGuard = .always
        · rw [if_pos halways, if_pos halways]
          obtain ⟨e, w, w', hexit, hexit', hexited⟩ | ⟨r₁, w, w', hlane, hexit, hexit', hexited⟩ :=
            exit_paired (r := r.entering) hpaired hkeys (n + 1) held s.log.cursor i
          · rw [hexit, hexit']
            exact Engine.conclude_twins (.script r.entering.vacant) hexited hkeys (n + 1)
          · rw [hexit, hexit']
            exact ih (r := r₁) (hlane ▸ hexited) (n + 1)
        · rw [if_neg halways, if_neg halways]
          let active := r.entering.standing (r.entering.key i.label) held s.log.cursor
          have hactive : active.RunsIn r.lane := ⟨rfl, fun step hstep => by cases hstep; rfl⟩
          obtain ⟨-, hsubscribed⟩ := hpaired.apart (Course.subscribe_apart hactive [i.exitGuard])
          exact ⟨rfl, rfl, hsubscribed.twins hkeys⟩

end ScriptRun

/-! ## Machines -/

namespace MachineRun

/-- The run with another number for its activation. -/
def numbered (r : MachineRun) (n : Nat) : MachineRun := { r with activation := n }

/-- The run in a step. -/
def standing (r : MachineRun) (key : SlotKey) (task : Option Handle) (since : Nat) : MachineRun :=
  { r with step := some ⟨key, task, since⟩ }

/-- The run as it enters a declared state. -/
def entering (r : MachineRun) (id : String) : MachineRun :=
  { r with toCourse := r.toCourse.enterStep, state := some id }

variable {r : MachineRun}

theorem enter_declared {id : String} {state : State} (hstate : r.machine.state? id = some state)
    (s : Stage) : r.enter id s =
      if state.isFinalMarker then (r.entering id).finish id s
      else
        match (r.entering id).takeTask state.id state.source s with
        | (.error e, u) => (r.entering id).fail e u
        | (.ok task, u) =>
          let r := (r.entering id).standing ((r.entering id).key id) task s.log.cursor
          (.advanced, r, r.subscribe (guardsOf state) u) := by
  unfold enter
  rw [hstate]
  rfl

/-- A run that begins again keeps the number of the activation and what was decided in its last step,
and the latter is forgotten when the initial state is entered. -/
theorem beginning_enter (h : (r.machine.state? r.machine.initial).isSome = true) (s : Stage) :
    r.beginning.enter r.machine.initial s =
      ((MachineRun.new r.machine r.lane r.depth).beginning.numbered r.activation).enter
        r.machine.initial s := by
  obtain ⟨state, hstate⟩ := Option.isSome_iff_exists.mp h
  let fresh := (MachineRun.new r.machine r.lane r.depth).beginning.numbered r.activation
  rw [enter_declared (r := r.beginning) hstate, enter_declared (r := fresh) hstate]
  rfl

/-- Whatever their numbers are, runs that enter a declared state abreast go through the same. -/
theorem enter_twins {id : String} (hstate : (r.machine.state? id).isSome)
    (h : Stage.Abreast r.lane t t' s s') (n : Nat) :
    Engine.Twins t t' (Engine.asMachine (r.enter id s))
      (Engine.asMachine ((r.numbered n).enter id s')) := by
  obtain ⟨state, hstate⟩ := Option.isSome_iff_exists.mp hstate
  have hid : state.id = id := by simpa using List.find?_some hstate
  have hlog := h.log
  have hentering : (r.numbered n).entering id = (r.entering id).numbered (n + 1) := rfl
  have hkeys : TwinKeys (r.entering id).lane ((r.entering id).key state.id)
    (((r.entering id).numbered (n + 1)).key state.id) := ⟨rfl, rfl⟩
  rw [enter_declared hstate, enter_declared (r := r.numbered n) hstate, hlog, hentering]
  by_cases hfinal : state.isFinalMarker = true
  · rw [if_pos hfinal, if_pos hfinal]
    exact Engine.conclude_twins (.machine (r.entering id)) (.none h) hkeys (n + 1)
  · rw [if_neg hfinal, if_neg hfinal]
    obtain ⟨hresult, held, hpaired, hheld⟩ := Course.takeTask_abreast h hkeys state.source
    rcases hleft : (r.entering id).takeTask state.id state.source s with ⟨result, u⟩
    rcases hright : ((r.entering id).numbered (n + 1)).takeTask state.id state.source s' with
      ⟨result', u'⟩
    rw [hleft, hright] at hresult hpaired
    rw [hleft] at hheld
    obtain rfl : result' = result := hresult
    cases result' with
    | error e => exact Engine.conclude_twins (.machine (r.entering id)) hpaired hkeys (n + 1)
    | ok task =>
      obtain rfl := hheld task rfl
      let active := (r.entering id).standing ((r.entering id).key id) held s.log.cursor
      have hactive : active.RunsIn r.lane := ⟨rfl, fun step hstep => by cases hstep; rfl⟩
      obtain ⟨-, hsubscribed⟩ := hpaired.apart (Course.subscribe_apart hactive (guardsOf state))
      exact ⟨rfl, rfl, hsubscribed.twins hkeys⟩

end MachineRun

/-! ## Engines -/

/-- Whether an engine of the model can be started at all and comes to enter a step. -/
def Model.startable : Model → Bool
  | .script s => !s.instructions.isEmpty
  | .machine m => (m.state? m.initial).isSome

namespace Engine

/-- A new engine of a model that has begun, with a number for its activation. -/
def begun (model : Model) (lane : Lane) (depth n : Nat) (s : Stage) : Threshold :=
  match model with
  | .script x => .script ((ScriptRun.new x lane depth).beginning.numbered n) s
  | .machine m => .machine m.initial ((MachineRun.new m lane depth).beginning.numbered n) s

variable {e e' : Engine} {model : Model} {depth n : Nat}

/-- However they are numbered, engines that begin abreast go through the same. -/
theorem begun_twins (hm : model.startable = true) (h : Stage.Abreast lane t t' s s')
    (depth n n' : Nat) :
    Engine.Twins t t' (begun model lane depth n s).enter (begun model lane depth n' s').enter := by
  cases model with
  | script x => exact ScriptRun.enterFrom_twins x.instructions h n'
  | machine m =>
    exact MachineRun.enter_twins (r := (MachineRun.new m lane depth).beginning.numbered n) hm h n'

/-- To start a new engine is to have it enter its first steps. -/
theorem new_start (hm : model.startable = true) (lane : Lane) (depth : Nat) (s : Stage) :
    (Engine.new model lane depth).start s = .ok (begun model lane depth 0 s).enter := by
  cases model with
  | script x =>
    have hsome : x.instructions.isEmpty = false := by simpa [Model.startable] using hm
    have hmay : ¬ ((ScriptRun.new x lane depth).status = .running ∨ x.instructions.isEmpty) := by
      rw [hsome]
      rintro (hrunning | hempty)
      · cases hrunning
      · cases hempty
    exact start_begins (if_neg hmay)
  | machine m => rfl

theorem stop_idle (c : Course) (s : Stage) : (c.stop s).1.status ≠ .running := by
  simp only [Course.stop, Course.close]
  split
  · exact EngineStatus.noConfusion
  · assumption

/-- To start an engine again is to have a new one with its number enter its first steps. -/
theorem restart_begun (hm : e.model.startable = true) (s : Stage) :
    e.restart s = (begun e.model e.course.lane e.course.depth e.course.activation
      (e.course.clearing s)).enter := by
  rw [restart_as_start]
  cases e with
  | script r =>
    have hsome : r.script.instructions ≠ [] := by simpa [Model.startable, model] using hm
    let stopped : ScriptRun := { r with toCourse := (r.toCourse.stop s).1 }
    have hidle : ¬ (stopped.status = .running ∨ stopped.script.instructions.isEmpty = true) := by
      rintro (hrunning | hempty)
      · exact stop_idle r.toCourse s hrunning
      · exact hsome (List.isEmpty_iff.mp hempty)
    have hbegins : Engine.passage? (.script stopped) .start (r.toCourse.clearing s) =
        some (.script stopped.beginning (r.toCourse.clearing s)) :=
      if_neg hidle
    refine (obey_enters hbegins).trans ?_
    have henter := ScriptRun.beginning_enter (r := stopped) hsome (r.toCourse.clearing s)
    rw [Threshold.enter, henter]
    rfl
  | machine r =>
    let stopped : MachineRun := { r with toCourse := (r.toCourse.stop s).1 }
    have hbegins : Engine.passage? (.machine stopped) .start (r.toCourse.clearing s) =
        some (.machine r.machine.initial stopped.beginning (r.toCourse.clearing s)) :=
      if_neg (stop_idle r.toCourse s)
    refine (obey_enters hbegins).trans ?_
    have henter := MachineRun.beginning_enter (r := stopped) hm (r.toCourse.clearing s)
    rw [Threshold.enter, henter]
    rfl

/-! ## Engines that run -/

/-- A start that comes to no step does not make an engine run. -/
theorem start_idle (hm : e.model.startable = false) {p : Progress}
    (h : e.start s = .ok (p, e', s')) : e'.status ≠ .running := by
  cases e with
  | script r =>
    obtain ⟨_, hstart, -⟩ := Except.map_eq_ok h
    have hempty : r.script.instructions.isEmpty = true := by
      simpa [Model.startable, model] using hm
    unfold ScriptRun.start at hstart
    split at hstart
    · cases hstart
    · cases hstart
  | machine r =>
    obtain ⟨_, hstart, he⟩ := Except.map_eq_ok h
    have hnone : r.machine.state? r.machine.initial = none := by
      simpa [Model.startable, model] using hm
    unfold MachineRun.start at hstart
    split at hstart
    · cases hstart
    · cases he
      cases hstart
      simp only [MachineRun.enter, hnone]
      exact EngineStatus.noConfusion

theorem onEvent_idle (he : e.status ≠ .running) (event : Event) (s : Stage) :
    e.onEvent event s = (.waiting, e, s) := by
  cases e with
  | script r =>
    have hidle : (r.status ≠ .running || r.step.isNone || r.replaced) = true := by
      simp [show r.status ≠ .running from he]
    show (_, _, _) = _
    simp only [ScriptRun.onEvent, hidle, if_true]
  | machine r =>
    have hidle : (r.status ≠ .running || r.replaced) = true := by
      simp [show r.status ≠ .running from he]
    show (_, _, _) = _
    simp only [MachineRun.onEvent, hidle, if_true]

theorem resume_idle (he : e.status ≠ .running) (s : Stage) : e.resume s = (.waiting, e, s) := by
  cases e with
  | script r =>
    show (_, _, _) = _
    simp only [ScriptRun.resume, if_pos (show r.status ≠ .running from he)]
  | machine r =>
    show (_, _, _) = _
    simp only [MachineRun.resume, if_pos (show r.status ≠ .running from he)]

theorem retireCurrent_status (e : Engine) (s : Stage) : (e.retireCurrent s).1.status = e.status := by
  have hcourse : (e.course.retireCurrent s).1.status = e.course.status := by
    unfold Course.retireCurrent
    split
    · split <;> rfl
    · rfl
  simp only [status, retireCurrent, withCourse_course]
  exact hcourse

theorem Act.idle (h : e.Act s e' s') (hm : e.model.startable = false) (he : e.status ≠ .running) :
    e'.status ≠ .running := by
  have hmodel : (e.stop s).1.model = e.model := by cases e <;> rfl
  have hstopped : (e.stop s).1.status ≠ .running := by
    cases e with
    | script r => exact stop_idle r.toCourse s
    | machine r => exact stop_idle r.toCourse s
  cases h with
  | start hs => exact start_idle hm hs
  | onEvent event => rwa [onEvent_idle he]
  | resume => rwa [resume_idle he]
  | restart =>
    rw [restart_as_start, obey]
    split
    · rename_i hs
      exact start_idle (hmodel ▸ hm) hs
    · exact hstopped
  | retireCurrent => rwa [retireCurrent_status]
  | stop => exact hstopped

/-- An engine that runs was started, so it can be started. -/
theorem Run.startable (h : Engine.Run lane e s n) (hr : e.isRunning = true) :
    e.model.startable = true := by
  have hidle : e.model.startable = false → e.status ≠ .running := by
    clear hr
    induction h with
    | new model depth s =>
      intro _
      cases model <;> exact EngineStatus.noConfusion
    | @act e e' s s' n hrun hact ih =>
      intro hm
      have hmodel := (hact.paces hrun.windowed.1).model_eq
      rw [hmodel] at hm
      exact hact.idle hm (ih hm)
    | world _ _ _ ih => exact ih
  by_contra hm
  exact hidle (by simpa using hm) (by simpa [isRunning] using hr)

end Engine

/-- An engine that starts again forgets what it went through. Take two engines of one model, in one
lane and with their variables at one depth, whatever became of them before, and let the model run in
one of them. Let the stages that are left when they are stopped and their variables are reset be the
same but for their pasts, with nothing attached under the root other than by slots, and let builders
attach nothing there. Then both restarts report the same and come to the same, numbers of activations
apart, and each does what a new engine does that is started on that stage. -/
theorem restart_forgets {lane : Lane} {e₁ e₂ : Engine} {s₁ s₂ : Stage} {n₁ n₂ : Nat}
    (h₁ : e₁.Run lane s₁ n₁) (h₂ : e₂.Run lane s₂ n₂)
    (hr : e₁.isRunning = true) (hmodel : e₂.model = e₁.model)
    (hdepth : e₂.course.depth = e₁.course.depth)
    (hpeers : (e₁.course.clearing s₁).Peers (e₂.course.clearing s₂))
    (howned : (e₁.course.clearing s₁).Owned)
    (hdiscreet : s₁.catalog.Discreet s₁.root) :
    Engine.Twins (e₁.course.clearing s₁) (e₂.course.clearing s₂) (e₁.restart s₁) (e₂.restart s₂) ∧
      (∃ result, (Engine.new e₁.model lane e₁.course.depth).start (e₁.course.clearing s₁) =
          .ok result ∧
        Engine.Twins (e₁.course.clearing s₁) (e₁.course.clearing s₁) result (e₁.restart s₁)) ∧
      ∃ result, (Engine.new e₁.model lane e₁.course.depth).start (e₂.course.clearing s₂) =
          .ok result ∧
        Engine.Twins (e₂.course.clearing s₂) (e₂.course.clearing s₂) result (e₂.restart s₂) := by
  have hm := h₁.startable hr
  have hlane₁ : e₁.course.lane = lane := h₁.windowed.1.home
  have hlane₂ : e₂.course.lane = lane := h₂.windowed.1.home
  have hfree : (e₁.course.clearing s₁).slots.holdings lane = [] :=
    (Course.clearing_tends h₁.windowed.1 s₁).free rfl
  have hbare := howned.bare hfree
  have hroot : (e₁.course.clearing s₁).root = s₁.root :=
    congrArg Handle.id (Slots.retireLane_root ..)
  have hdiscreet₁ : (e₁.course.clearing s₁).catalog.Discreet (e₁.course.clearing s₁).root := by
    rw [hroot]
    exact hdiscreet
  have habreast := Stage.Abreast.of_peers hbare hdiscreet₁ hpeers
  have hrestart₁ := Engine.restart_begun hm s₁
  have hrestart₂ := Engine.restart_begun (hmodel ▸ hm : e₂.model.startable = true) s₂
  rw [hlane₁] at hrestart₁
  rw [hlane₂, hmodel, hdepth] at hrestart₂
  rw [hrestart₁, hrestart₂]
  exact ⟨Engine.begun_twins hm habreast _ _ _,
    ⟨_, Engine.new_start hm lane _ _, Engine.begun_twins hm habreast.left _ _ _⟩,
    ⟨_, Engine.new_start hm lane _ _, Engine.begun_twins hm habreast.right _ _ _⟩⟩

/-! ## A sample -/

/-- A script that uses the same crane twice, each time until the root says to go. -/
def Script.shipping : Script :=
  let go : Guard := .leaf (.emitted .root ⟨"go"⟩)
  ⟨"shipping", [], [⟨"load", some (.builder "crane" .empty), none, go, []⟩,
    ⟨"unload", some (.builder "crane" .empty), none, go, []⟩]⟩

/-- A stage with a root and a crane. -/
def Stage.harbour : Stage where
  catalog := Catalog.empty.addBuilder "crane" (.fixed ⟨⟨"task-2"⟩, "Crane"⟩)
  scopes := Scopes.base.push "shipping" []
  slots := .new ⟨⟨"task-1"⟩, "Mission"⟩ "session"
  log := .empty
  interests := .empty
  trail := .empty true
  plan := ((Plan.empty.addRoot "Mission").2.allocate "Crane" .running .empty).2

/-- The script as it loads. -/
def Engine.loading : Progress × Engine × Stage :=
  (Engine.begun (.script .shipping) .model 1 0 .harbour).enter

/-- The stage once the root has said to go. -/
def Stage.loaded : Stage :=
  { Engine.loading.2.2 with log := Engine.loading.2.2.log.record ⟨⟨"task-1"⟩, ⟨"go"⟩, none⟩ }

/-- The script as it unloads. -/
def Engine.unloading : Progress × Engine × Stage :=
  Engine.loading.2.1.onEvent ⟨⟨"task-1"⟩, ⟨"go"⟩, none⟩ .loaded

/-- Both are reached by runs, one of which has a step more behind it than the other. -/
theorem Engine.shipping_runs :
    (∃ n, Engine.loading.2.1.Run .model .loaded n) ∧
      ∃ n, Engine.unloading.2.1.Run .model Engine.unloading.2.2 n := by
  have hloading : Engine.loading.2.1.Run .model Engine.loading.2.2 _ :=
    (Engine.Run.new (.script .shipping) 1 .harbour).act
      (.start (p := Engine.loading.1) (Engine.new_start rfl .model 1 .harbour))
  have hloaded : Engine.loading.2.1.Run .model .loaded _ :=
    hloading.world (Log.extends_record _ _) rfl
  exact ⟨⟨_, hloaded⟩, _, hloaded.act (.onEvent _)⟩

/-- The one is in its first step, the other in its second. They start again as a new engine starts,
with their own numbers in the key of the slot. -/
theorem restart_forgets_shipping :
    Engine.loading.2.1.course.path = [] ∧
      Engine.unloading.2.1.course.path = [.advanced 0 "load" (some ⟨"task-2"⟩) false] ∧
      (Engine.loading.2.1.restart .loaded).2.1.course.step =
        some ⟨⟨.model, "load", 2⟩, some ⟨⟨"task-2"⟩, "Crane"⟩, 1⟩ ∧
      (Engine.unloading.2.1.restart Engine.unloading.2.2).2.1.course.step =
        some ⟨⟨.model, "load", 3⟩, some ⟨⟨"task-2"⟩, "Crane"⟩, 1⟩ ∧
      Engine.Twins (Engine.loading.2.1.course.clearing .loaded)
        (Engine.unloading.2.1.course.clearing Engine.unloading.2.2)
        (Engine.loading.2.1.restart .loaded) (Engine.unloading.2.1.restart Engine.unloading.2.2) := by
  obtain ⟨⟨_, hloading⟩, _, hunloading⟩ := Engine.shipping_runs
  have hpeers : (Engine.loading.2.1.course.clearing .loaded).Peers
    (Engine.unloading.2.1.course.clearing Engine.unloading.2.2) := ⟨_, _, rfl⟩
  have howned : (Engine.loading.2.1.course.clearing .loaded).Owned := by
    refine ⟨?_, by decide⟩
    show ∀ slot ∈ _, _
    decide
  have hdiscreet : Stage.loaded.catalog.Discreet Stage.loaded.root :=
    Catalog.Modest.discreet (.addBuilder .empty "crane" (Builder.fixed_modest _)) _
  obtain ⟨htwins, -⟩ := restart_forgets hloading hunloading rfl rfl rfl hpeers howned hdiscreet
  exact ⟨by decide, by decide, by decide, by decide, htwins⟩

end Conductor
