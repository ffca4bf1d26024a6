import Conductor.Proofs.Engine.Errors
import Conductor.Proofs.Engine.Moves
import Conductor.Proofs.Fault.Phases
import Conductor.Session

/-!
Steps: the small changes that a session goes through in the course of a call, and what the
operations on a session come to in terms of them.
-/

namespace Conductor

theorem Status.not_running {s : Status} (h : s.isTerminal = true) : ¬ s.isRunning = true := by
  cases s <;> simp_all [isTerminal, isRunning]

theorem Status.eq_running {s : Status} (h : s.isRunning = true) : s = .running := by
  cases s <;> simp_all [isRunning]

theorem Session.running_of_same {s s' : Session} (h : s'.status = s.status)
    (hr : s.isRunning = true) : s'.isRunning = true := by
  rw [isRunning, h]
  exact hr

namespace Scene

/-- The normal model has acted. -/
def withEngine (c : Scene) (e : Engine) (s : Stage) : Scene :=
  (c.onStage s).map fun session => { session with engine := e }

/-- The active handler has acted. -/
def withHandler (c : Scene) (active : ActiveHandler) (e : Engine) (s : Stage) : Scene :=
  (c.onStage s).map fun session =>
    { session with faults := { session.faults with active := some { active with engine := e } } }

def record (c : Scene) (r : Trail.Record) : Scene := c.map fun session => session.recordTrail r

def withPending (c : Scene) (pending : List Fault) : Scene :=
  c.map fun session => { session with faults := { session.faults with pending } }

/-- A fault that had to make room is on record. -/
def recordDropped (c : Scene) : Option Fault → Scene
  | some old => c.record (.fault old .dropped none)
  | none => c

/-- A fault is put behind the active handler. -/
def enqueue (c : Scene) (f : Fault) : Scene :=
  ((c.map fun session => { session with faults := (session.faults.enqueue f).2 }).recordDropped
    (c.session.faults.enqueue f).1).record (.fault f .queued none)

/-- The handler of a response, whose variables will be in the next scope. -/
def fresh (c : Scene) (target : Target) (f : Fault) : ActiveHandler :=
  ⟨target.table, target.entry, target.response.priority, f,
    .new target.response.handler .handler c.session.core.scopes.depth⟩

/-- The handler of a response takes over and is about to start. -/
def install (c : Scene) (target : Target) (f : Fault) : Scene :=
  c.map fun session =>
    { session with
      core := { session.core with
        scopes := session.core.scopes.push target.response.handler.name
          target.response.handler.vars }
      faults := { (session.faults.advance target.table target.entry .triggered).advance
          target.table target.entry .handling with active := some (c.fresh target f) } }

/-- The active handler has handled its fault. -/
def resolved (c : Scene) (active : ActiveHandler) (completion : Completion) : Scene :=
  (c.endHandler active .resolved).record (.fault active.fault .resolved completion.model)

/-- A session hears of an event. -/
def hear (c : Scene) (e : Event) : Scene :=
  c.map fun session =>
    { session with
      deliveries := session.deliveries + 1
      core := { session.core with log := session.core.log.record e } }

/-- The normal model is about to start. -/
def begin (c : Scene) : Scene :=
  c.map fun session => { session.recordTrail (.started session.model.name) with status := .running }

@[simp] theorem map_plan (c : Scene) (f : Session → Session) : (c.map f).plan = c.plan := rfl

@[simp] theorem withEngine_engine (c : Scene) (e : Engine) (s : Stage) :
    (c.withEngine e s).session.engine = e :=
  rfl

@[simp] theorem withEngine_id (c : Scene) (e : Engine) (s : Stage) :
    (c.withEngine e s).session.id = c.session.id :=
  rfl

@[simp] theorem withEngine_core (c : Scene) (e : Engine) (s : Stage) :
    (c.withEngine e s).session.core = s.toCore :=
  rfl

@[simp] theorem withEngine_faults (c : Scene) (e : Engine) (s : Stage) :
    (c.withEngine e s).session.faults = c.session.faults :=
  rfl

@[simp] theorem withEngine_plan (c : Scene) (e : Engine) (s : Stage) :
    (c.withEngine e s).plan = s.plan :=
  rfl

@[simp] theorem withHandler_engine (c : Scene) (active : ActiveHandler) (e : Engine) (s : Stage) :
    (c.withHandler active e s).session.engine = c.session.engine :=
  rfl

@[simp] theorem withHandler_status (c : Scene) (active : ActiveHandler) (e : Engine) (s : Stage) :
    (c.withHandler active e s).session.status = c.session.status :=
  rfl

end Scene

namespace Dispatch

/-- Putting a fault behind the active handler changes nothing but the faults that wait. -/
theorem enqueue_eq (d : Dispatch) (f : Fault) :
    ∃ pending, (d.enqueue f).2 = { d with pending } := by
  unfold enqueue
  split
  split <;> exact ⟨_, rfl⟩

end Dispatch

namespace Scene

variable {c : Scene} {f : Fault}

@[simp] theorem resolved_engine (c : Scene) (active : ActiveHandler) (completion : Completion) :
    (c.resolved active completion).session.engine = c.session.engine :=
  rfl

@[simp] theorem resolved_status (c : Scene) (active : ActiveHandler) (completion : Completion) :
    (c.resolved active completion).session.status = c.session.status :=
  rfl

@[simp] theorem endHandler_active (c : Scene) (active : ActiveHandler) (phase : Phase) :
    (c.endHandler active phase).session.faults.active = none := by
  simp [endHandler, map, Session.advancePhase, Session.popScope]

@[simp] theorem endHandler_pending (c : Scene) (active : ActiveHandler) (phase : Phase) :
    (c.endHandler active phase).session.faults.pending = c.session.faults.pending := by
  simp [endHandler, map, Session.advancePhase, Session.popScope]

@[simp] theorem endHandler_limit (c : Scene) (active : ActiveHandler) (phase : Phase) :
    (c.endHandler active phase).session.faults.limit = c.session.faults.limit := by
  simp [endHandler, map, Session.advancePhase, Session.popScope]

theorem abandonHandler_status (c : Scene) :
    c.abandonHandler.2.session.status = c.session.status := by
  unfold abandonHandler
  split <;> rfl

theorem abandonHandler_pending (c : Scene) :
    c.abandonHandler.2.session.faults.pending = c.session.faults.pending := by
  unfold abandonHandler
  split
  · rfl
  · simp [map, onStage, Session.advancePhase, Session.popScope]

theorem abandonHandler_limit (c : Scene) :
    c.abandonHandler.2.session.faults.limit = c.session.faults.limit := by
  unfold abandonHandler
  split
  · rfl
  · simp [map, onStage, Session.advancePhase, Session.popScope]

theorem abandonHandler_responses (c : Scene) :
    c.abandonHandler.2.session.faults.responses = c.session.faults.responses := by
  unfold abandonHandler
  split
  · rfl
  · simp only [map, Session.advancePhase, Session.popScope, Dispatch.advance_responses]
    rfl

theorem abandonHandler_active (c : Scene) : c.abandonHandler.2.session.faults.active = none := by
  unfold abandonHandler
  split
  · assumption
  · simp [map, Session.advancePhase, Session.popScope]

/-! ## Handlers -/

/-- How the normal model goes on once a fault is handled. -/
def resumptionOf (c : Scene) (active : ActiveHandler) :
    Engine → Stage → Progress × Engine × Stage :=
  match (c.session.faults.response? active.table active.entry).map Response.resumption with
  | some .restart => Engine.restart
  | _ => Engine.resume

theorem resumptionOf_eq (c : Scene) (active : ActiveHandler) :
    c.resumptionOf active = Engine.restart ∨ c.resumptionOf active = Engine.resume := by
  unfold resumptionOf
  cases (c.session.faults.response? active.table active.entry).map Response.resumption with
  | none => exact .inr rfl
  | some r =>
    cases r with
    | restart => exact .inl rfl
    | goOn => exact .inr rfl

theorem resumptionOf_act (c : Scene) (active : ActiveHandler) (e : Engine) (s : Stage) :
    e.Act s (c.resumptionOf active e s).2.1 (c.resumptionOf active e s).2.2 := by
  rcases c.resumptionOf_eq active with h | h
  · rw [h]
    exact .restart
  · rw [h]
    exact .resume

theorem resumptionOf_plain (c : Scene) (active : ActiveHandler) (e : Engine) (s : Stage) :
    (c.resumptionOf active e s).1.Plain := by
  rcases c.resumptionOf_eq active with h | h
  · rw [h]
    exact (e.restart_mishap s).plain
  · rw [h]
    exact e.resume_plain s

theorem resolve_eq (c : Scene) (active : ActiveHandler) (completion : Completion) :
    c.resolve active completion =
      (((c.resolved active completion).runModel
        ((c.resolved active completion).resumptionOf active)).2.settleModel
      ((c.resolved active completion).runModel
        ((c.resolved active completion).resumptionOf active)).1) := by
  simp only [resolve, resumptionOf, resolved, record]
  generalize (c.endHandler active .resolved).map _ = d
  cases d.session.faults.response? active.table active.entry with
  | none => rfl
  | some r => cases h : r.resumption <;> simp only [h, Option.map_some]

/-- The scene in which the handler of a response is about to take over. -/
def ready (c : Scene) (target : Target) (f : Fault) (d : Disposition) : Scene :=
  (c.record (.fault f d target.response.name)).suspend target.response

theorem suspend_advance (c : Scene) (r : Response) (table entry : Nat) (next : Phase) :
    (c.map fun session => session.advancePhase table entry next).suspend r =
      (c.suspend r).map fun session => session.advancePhase table entry next := by
  unfold suspend
  split <;> rfl

theorem launch_eq (c : Scene) (target : Target) (f : Fault) :
    (c.map fun session => session.advancePhase target.table target.entry .triggered).launch
        target f =
      match (c.fresh target f).engine.start (c.install target f).stage with
      | .ok (p, e, s) => (p, (c.install target f).withHandler (c.fresh target f) e s)
      | .error error => (.failed error, c.install target f) := by
  simp only [launch]
  split
  · rename_i result hs
    have h : (c.fresh target f).engine.start (c.install target f).stage = .ok result := hs
    rw [h]
    rfl
  · rename_i error hs
    have h : (c.fresh target f).engine.start (c.install target f).stage = .error error := hs
    rw [h]
    rfl

theorem startHandler_eq (c : Scene) (target : Target) (f : Fault) (d : Disposition) :
    c.startHandler target f d =
      match ((c.ready target f d).fresh target f).engine.start
        ((c.ready target f d).install target f).stage with
      | .ok (p, e, s) => (p, ((c.ready target f d).install target f).withHandler
          ((c.ready target f d).fresh target f) e s)
      | .error error => (.failed error, (c.ready target f d).install target f) := by
  rw [← launch_eq, ready, ← suspend_advance]
  rfl

/-- Apart from the trail, putting a fault behind the active handler is a matter of dispatch. -/
theorem enqueue_eq (c : Scene) (f : Fault) :
    ∃ trail, c.enqueue f = c.map fun session =>
      { session with
        core := { session.core with trail }
        faults := (session.faults.enqueue f).2 } := by
  unfold enqueue
  cases (c.session.faults.enqueue f).1 <;> exact ⟨_, rfl⟩

@[simp] theorem ready_status (c : Scene) (target : Target) (f : Fault) (d : Disposition) :
    (c.ready target f d).session.status = c.session.status := by
  unfold ready suspend
  split <;> rfl

@[simp] theorem ready_faults (c : Scene) (target : Target) (f : Fault) (d : Disposition) :
    (c.ready target f d).session.faults = c.session.faults := by
  unfold ready suspend
  split <;> rfl

/-- Starting a handler leaves the status and the waiting faults alone, and makes the fault that of
the active handler. -/
theorem startHandler_ok {target : Target} {d : Disposition} {p : Progress} {c' : Scene}
    (h : c.startHandler target f d = (p, c')) :
    c'.session.status = c.session.status ∧
      c'.session.faults.pending = c.session.faults.pending ∧
      ∃ active, c'.session.faults.active = some active ∧ active.fault = f := by
  rw [startHandler_eq] at h
  split at h
  · cases h
    exact ⟨ready_status .., by simp [withHandler, install, map, onStage], _, rfl, rfl⟩
  · cases h
    exact ⟨ready_status .., by simp [install, map], _, rfl, rfl⟩

theorem escalate_ok {active : ActiveHandler} {next : Option Target} {c' : Scene}
    (h : c.escalate active = (next, c')) :
    c'.session.status = c.session.status ∧ c'.session.faults.active = none ∧
      c'.session.faults.pending = c.session.faults.pending := by
  obtain rfl : (c.escalate active).2 = c' := congrArg Prod.snd h
  exact ⟨rfl, endHandler_active c active .escalated, endHandler_pending c active .escalated⟩

/-- A fault goes on to a response that the tables have. -/
theorem escalate_found {active : ActiveHandler} {next : Target} {c' : Scene}
    (h : c.escalate active = (some next, c')) :
    c'.session.faults.response? next.table next.entry = some next.response := by
  obtain rfl : (c.escalate active).2 = c' := congrArg Prod.snd h
  exact Dispatch.response?_of_selectFrom (congrArg Prod.fst h)

theorem decide_activate {d : Dispatch} {inReach : Reach → Bool} {target : Target}
    (h : d.decide f inReach = .activate target) : d.active = none := by
  unfold Dispatch.decide at h
  split at h
  · cases h
  · assumption
  · split at h <;> cases h

theorem decide_displace {d : Dispatch} {inReach : Reach → Bool}
    (h : (∃ target, d.decide f inReach = .preempt target) ∨ d.decide f inReach = .queue) :
    ∃ active, d.active = some active := by
  unfold Dispatch.decide at h
  split at h
  · rcases h with ⟨_, h⟩ | h <;> cases h
  · rcases h with ⟨_, h⟩ | h <;> cases h
  · exact ⟨_, by assumption⟩

/-- A handler is started for a response that the tables have. -/
theorem decide_found {d : Dispatch} {inReach : Reach → Bool} {target : Target}
    (h : d.decide f inReach = .activate target ∨ d.decide f inReach = .preempt target) :
    d.response? target.table target.entry = some target.response := by
  unfold Dispatch.decide at h
  split at h
  · rcases h with h | h <;> cases h
  · rename_i hs _
    rcases h with h | h
    · cases h
      exact Dispatch.response?_of_selectFrom hs
    · cases h
  · rename_i hs _
    split at h
    · rcases h with h | h
      · cases h
      · cases h
        exact Dispatch.response?_of_selectFrom hs
    · rcases h with h | h <;> cases h

theorem abandonHandler_ok {active : ActiveHandler} (h : c.session.faults.active = some active) :
    c.abandonHandler.1 = some active.fault ∧
      c.abandonHandler.2.session.status = c.session.status ∧
      c.abandonHandler.2.session.faults.active = none := by
  refine ⟨?_, abandonHandler_status c, abandonHandler_active c⟩
  simp [abandonHandler, h]

/-! ## Ends -/

/-- What is left of a session that ends, before its engine and its slots are retired. -/
def cleared (c : Scene) : Scene := c.abandonHandler.2.withPending []

theorem retireEverything_eq (c : Scene) :
    c.retireEverything = c.cleared.withEngine (c.cleared.session.engine.stop c.cleared.stage).1
      (c.cleared.session.engine.stop c.cleared.stage).2.retireAll :=
  rfl

theorem cleared_faults (c : Scene) :
    c.retireEverything.session.faults.active = none ∧
      c.retireEverything.session.faults.pending = [] := by
  rw [retireEverything_eq]
  exact ⟨abandonHandler_active c, rfl⟩

/-- What a session does once everything is retired: it tells its owner and ends. -/
structure Closing (g : Session → Session) : Prop where
  id : ∀ s, (g s).id = s.id
  slots : ∀ s, (g s).core.slots = s.core.slots
  catalog : ∀ s, (g s).core.catalog = s.core.catalog
  scopes : ∀ s, (g s).core.scopes = s.core.scopes
  log : ∀ s, (g s).core.log = s.core.log
  interests : ∀ s, (g s).core.interests = s.core.interests
  engine : ∀ s, (g s).engine = s.engine
  faults : ∀ s, (g s).faults = s.faults
  deliveries : ∀ s, (g s).deliveries = s.deliveries
  ended : ∀ s, (g s).status.isTerminal = true

theorem succeed_eq (c : Scene) (completion : Completion) :
    ∃ g, Closing g ∧ (c.succeed completion).2 = c.retireEverything.map g := by
  cases h : completion.kind with
  | nominal =>
    refine ⟨fun session => { session.notify (.success completion) with
      status := .succeeded completion }, ?_, by simp only [succeed, h]⟩
    exact ⟨fun _ => rfl, fun _ => rfl, fun _ => rfl, fun _ => rfl, fun _ => rfl, fun _ => rfl,
      fun _ => rfl, fun _ => rfl, fun _ => rfl, fun _ => rfl⟩
  | failureRecovered =>
    refine ⟨fun session => { session.notify (.recovery completion) with
      status := .recovered completion }, ?_, by simp only [succeed, h]⟩
    exact ⟨fun _ => rfl, fun _ => rfl, fun _ => rfl, fun _ => rfl, fun _ => rfl, fun _ => rfl,
      fun _ => rfl, fun _ => rfl, fun _ => rfl, fun _ => rfl⟩

theorem fail_eq (c : Scene) (error : Error) :
    ∃ g, Closing g ∧ (c.fail error).2 = c.retireEverything.map g := by
  refine ⟨fun session => { session.notify (.failure error) with status := .failed error }, ?_,
    by simp only [fail]⟩
  exact ⟨fun _ => rfl, fun _ => rfl, fun _ => rfl, fun _ => rfl, fun _ => rfl, fun _ => rfl,
    fun _ => rfl, fun _ => rfl, fun _ => rfl, fun _ => rfl⟩

theorem halt_eq (c : Scene) (reason : String) :
    ∃ g, Closing g ∧ (c.halt reason).2 = c.retireEverything.map g := by
  refine ⟨fun session => { session.recordTrail (.stopped reason) with status := .stopped }, ?_,
    by simp only [halt]⟩
  exact ⟨fun _ => rfl, fun _ => rfl, fun _ => rfl, fun _ => rfl, fun _ => rfl, fun _ => rfl,
    fun _ => rfl, fun _ => rfl, fun _ => rfl, fun _ => rfl⟩

/-- What the model reports leaves the session as it is or ends it. -/
theorem settleModel_eq (c : Scene) (p : Progress) :
    (c.settleModel p).2 = c ∨
      ∃ g, Closing g ∧ (c.settleModel p).2 = c.retireEverything.map g := by
  cases p with
  | waiting | advanced => exact .inl rfl
  | finished completion => exact .inr (succeed_eq c completion)
  | failed error => exact .inr (fail_eq c error)

/-- A fault for which no table is left is on record and made known. -/
def giveUp (c : Scene) (f : Fault) : Scene :=
  c.map fun session => (session.recordTrail (.fault f .exhausted none)).notify (.escalated f)

theorem exhaust_eq (c : Scene) (f : Fault) :
    (c.exhaust f).2 = ((c.giveUp f).fail .escalationExhausted).2 :=
  rfl

theorem succeed_terminal (c : Scene) (completion : Completion) :
    (c.succeed completion).2.session.status.isTerminal = true := by
  obtain ⟨g, hg, h⟩ := succeed_eq c completion
  rw [h]
  exact hg.ended _

theorem fail_terminal (c : Scene) (error : Error) :
    (c.fail error).2.session.status.isTerminal = true := by
  obtain ⟨g, hg, h⟩ := fail_eq c error
  rw [h]
  exact hg.ended _

theorem halt_terminal (c : Scene) (reason : String) :
    (c.halt reason).2.session.status.isTerminal = true := by
  obtain ⟨g, hg, h⟩ := halt_eq c reason
  rw [h]
  exact hg.ended _

theorem exhaust_terminal (c : Scene) (f : Fault) :
    (c.exhaust f).2.session.status.isTerminal = true := by
  rw [exhaust_eq]
  exact fail_terminal ..

theorem settleModel_pending {p : Progress}
    (h : (c.settleModel p).2.session.isRunning = true) :
    (c.settleModel p).2.session.faults.pending = c.session.faults.pending := by
  obtain he | ⟨g, hg, he⟩ := settleModel_eq c p
  · rw [he]
  · rw [he] at h
    exact absurd h (Status.not_running (hg.ended _))

theorem resolve_pending {active : ActiveHandler} {completion : Completion}
    (h : (c.resolve active completion).2.session.isRunning = true) :
    (c.resolve active completion).2.session.faults.pending = c.session.faults.pending := by
  rw [resolve_eq] at h ⊢
  rw [settleModel_pending h]
  exact endHandler_pending c active .resolved

end Scene

end Conductor
