import Conductor.Config
import Conductor.Fault.Dispatch

/-!
Sessions: one root task, one model, and the response tables around it. A session is driven from
outside, one signal at a time. It never ends a task by itself other than by retiring what it
attached, and at its end nothing it attached is left.

While a fault handler runs the normal model only records events; it catches up when it goes on. A
handler that fails hands its fault to the next table outwards, and one that finishes lets the
model go on and the faults that waited behind it be handled.
-/

namespace Conductor

/-- Where a session is in its life. -/
inductive Status where
  | created
  | running
  | succeeded (completion : Completion)
  | recovered (completion : Completion)
  | failed (error : Error)
  | stopped
deriving DecidableEq

namespace Status

def isRunning : Status → Bool
  | running => true
  | _ => false

def isTerminal : Status → Bool
  | created | running => false
  | _ => true

end Status

/-- How a start, a delivery or a stop changed a session. -/
inductive Outcome where
  | ignored
  | waiting
  | advanced
  | handlerStarted (response : String)
  | faultResolved (response : String)
  | faultQueued
  | faultUnhandled
  | succeeded (completion : Completion)
  | recovered (completion : Completion)
  | failed (error : Error)
  | stopped
deriving DecidableEq

namespace Outcome

def isTerminal : Outcome → Bool
  | succeeded _ | recovered _ | failed _ | stopped => true
  | _ => false

end Outcome

/-- What the owner of a session is told. -/
inductive Notice where
  | success (completion : Completion)
  | recovery (completion : Completion)
  | failure (error : Error)
  | escalated (fault : Fault)
deriving DecidableEq

structure Session where
  id : String
  config : Config
  model : Model
  core : Core
  engine : Engine
  faults : Dispatch
  /-- What the owner was told, in order. -/
  notices : List Notice
  status : Status
  /-- Signals delivered while running. -/
  deliveries : Nat

/-- A session with the plan that it acts on. -/
structure Scene where
  session : Session
  plan : Plan

namespace Session

/-- A session for a root task, not started yet. -/
def new (id : String) (root : Handle) (model : Model) : Session :=
  let config : Config := {}
  let scopes := Scopes.base.push model.name model.vars
  { id, config, model
    core := {
      catalog := .empty
      scopes
      slots := .new root config.rolePrefix
      log := .empty
      interests := .empty
      trail := .empty config.keepsTrail }
    engine := .new model .model (scopes.depth - 1)
    faults := .new config.pendingLimit
    notices := []
    status := .created
    deliveries := 0 }

def root (s : Session) : Handle := s.core.slots.root

def withConfig (s : Session) (config : Config) : Session :=
  { s with
    config
    core := { s.core with
      slots := .new s.root config.rolePrefix
      trail := .empty config.keepsTrail }
    faults := s.faults.setLimit config.pendingLimit }

def withCatalog (s : Session) (catalog : Catalog) : Session :=
  { s with core := { s.core with catalog } }

/-- Adds a response table around the others. -/
def withTable (s : Session) (t : ResponseTable) : Session :=
  { s with faults := s.faults.addTable t }

def isRunning (s : Session) : Bool := s.status.isRunning

/-- Whether the normal model is paused while a handler runs. -/
def isSuspended (s : Session) : Bool := s.faults.isHandling

/-- The name of the response whose handler runs. -/
def activeHandler? (s : Session) : Option String :=
  (s.faults.active.bind fun a => s.faults.response? a.table a.entry).map Response.name

def handlerTask? (s : Session) : Option Handle := s.faults.active.bind fun a => a.engine.task?

def valueOf? (s : Session) (name : String) : Option Value := s.core.scopes.peek? name

/-- Which responses are open to a fault, given the children attached right now. -/
def inReach (s : Session) (f : Fault) : Reach → Bool
  | .direct => near
  | .propagating =>
    near || f.involves s.root.id || s.core.slots.children.any fun c => f.involves c.id
where
  near : Bool := f.origin == s.root.id || s.core.slots.isChild f.origin

/-- Whether a signal concerns the session. -/
def wants (s : Session) (signal : Signal) : Bool :=
  s.isRunning &&
    match signal with
    | .event e =>
      e.task == s.root.id || s.core.slots.isChild e.task || s.core.interests.wants e.task e.name
    | .fault f => f.involves s.root.id || s.core.slots.children.any fun c => f.involves c.id

def takeInterestChanges (s : Session) : List InterestChange × Session :=
  let (changes, interests) := s.core.interests.takeChanges
  (changes, { s with core := { s.core with interests } })

def recordTrail (s : Session) (r : Trail.Record) : Session :=
  { s with core := { s.core with trail := s.core.trail.record r } }

def notify (s : Session) (n : Notice) : Session := { s with notices := s.notices ++ [n] }

/-- Moves a response on in its life. -/
def advancePhase (s : Session) (table entry : Nat) (next : Phase) : Session :=
  { s with faults := s.faults.advance table entry next }

def popScope (s : Session) : Session :=
  { s with core := { s.core with scopes := s.core.scopes.pop.2 } }

end Session

namespace Scene

/-- The stage on which the session's engines act. -/
def stage (c : Scene) : Stage := { c.session.core with plan := c.plan }

/-- The scene after something happened on its stage. -/
def onStage (c : Scene) (s : Stage) : Scene :=
  ⟨{ c.session with core := s.toCore }, s.plan⟩

def map (c : Scene) (f : Session → Session) : Scene := { c with session := f c.session }

/-- Lets the normal model act. -/
def runModel (c : Scene) (act : Engine → Stage → Progress × Engine × Stage) : Progress × Scene :=
  let (progress, engine, s) := act c.session.engine c.stage
  (progress, (c.onStage s).map fun session => { session with engine })

/-! Ends. -/

/-- Stops the active handler without resolving or escalating its fault. -/
def abandonHandler (c : Scene) : Option Fault × Scene :=
  match c.session.faults.active with
  | none => (none, c)
  | some active =>
    let (_, s) := active.engine.stop c.stage
    (some active.fault, (c.onStage s).map fun session =>
      ({ session with faults := { session.faults with active := none } }.popScope).advancePhase
        active.table active.entry .idle)

/-- Stops both engines and detaches every child. -/
def retireEverything (c : Scene) : Scene :=
  let (_, c) := c.abandonHandler
  let c := c.map fun session => { session with faults := session.faults.clearPending }
  let (engine, s) := c.session.engine.stop c.stage
  (c.onStage s.retireAll).map fun session => { session with engine }

def succeed (c : Scene) (completion : Completion) : Outcome × Scene :=
  let c := c.retireEverything
  match completion.kind with
  | .nominal =>
    (.succeeded completion, c.map fun session =>
      { session.notify (.success completion) with status := .succeeded completion })
  | .failureRecovered =>
    (.recovered completion, c.map fun session =>
      { session.notify (.recovery completion) with status := .recovered completion })

def fail (c : Scene) (error : Error) : Outcome × Scene :=
  (.failed error, c.retireEverything.map fun session =>
    { session.notify (.failure error) with status := .failed error })

def halt (c : Scene) (reason : String) : Outcome × Scene :=
  (.stopped, c.retireEverything.map fun session =>
    { session.recordTrail (.stopped reason) with status := .stopped })

/-- Draws the consequence of what the normal model reports. -/
def settleModel (c : Scene) : Progress → Outcome × Scene
  | .waiting => (.waiting, c)
  | .advanced => (.advanced, c)
  | .finished completion => c.succeed completion
  | .failed error => c.fail error

/-! Handlers. -/

/-- The suspended model gives its task up where the response says so. -/
def suspend (c : Scene) (r : Response) : Scene :=
  if r.replaces then
    let (engine, s) := c.session.engine.retireCurrent c.stage
    (c.onStage s).map fun session => { session with engine }
  else c

/-- Starts a handler in a scope of its own. -/
def launch (c : Scene) (target : Target) (f : Fault) : Progress × Scene :=
  let r := target.response
  let depth := c.session.core.scopes.depth
  let c := c.map fun session =>
    { session with core := { session.core with
        scopes := session.core.scopes.push r.handler.name r.handler.vars } }
  let engine := Engine.new r.handler .handler depth
  let c := c.map fun session => session.advancePhase target.table target.entry .handling
  let (progress, engine, s) := match engine.start c.stage with
    | .ok result => result
    | .error e => (.failed e, engine, c.stage)
  (progress, (c.onStage s).map fun session =>
    { session with faults := { session.faults with
        active := some ⟨target.table, target.entry, r.priority, f, engine⟩ } })

/-- Starts the handler of a response for a fault. -/
def startHandler (c : Scene) (target : Target) (f : Fault) (d : Disposition) :
    Progress × Scene :=
  let r := target.response
  let c := c.map fun session =>
    (session.advancePhase target.table target.entry .triggered).recordTrail (.fault f d r.name)
  (c.suspend r).launch target f

/-- Ends the active handler, whose response passes through the given phase back to idle. -/
def endHandler (c : Scene) (active : ActiveHandler) (phase : Phase) : Scene :=
  c.map fun session =>
    let session := { session with faults := { session.faults with active := none } }.popScope
    (session.advancePhase active.table active.entry phase).advancePhase active.table active.entry
      .idle

/-- The active handler has succeeded: the normal model goes on. -/
def resolve (c : Scene) (active : ActiveHandler) (completion : Completion) : Outcome × Scene :=
  let c := (c.endHandler active .resolved).map fun session =>
    session.recordTrail (.fault active.fault .resolved completion.model)
  let resumption := match c.session.faults.response? active.table active.entry with
    | some r => r.resumption
    | none => .goOn
  let (progress, c) := c.runModel fun engine s =>
    match resumption with
    | .restart => engine.restart s
    | .goOn => engine.resume s
  c.settleModel progress

/-- The active handler has failed: its fault leaves it, and goes to the response of the next table
outwards, if there is one. -/
def escalate (c : Scene) (active : ActiveHandler) : Option Target × Scene :=
  let c := (c.endHandler active .escalated).map fun session =>
    session.recordTrail (.fault active.fault .escalated none)
  (c.session.faults.escalationTarget active.fault active.table (c.session.inReach active.fault), c)

/-- No table is left for a fault. -/
def exhaust (c : Scene) (f : Fault) : Outcome × Scene :=
  let c := c.map fun session =>
    (session.recordTrail (.fault f .exhausted none)).notify (.escalated f)
  c.fail .escalationExhausted

/-- What became of a fault for which handlers were started. -/
inductive Handling where
  /-- A handler runs. -/
  | started (response : String)
  /-- A handler finished at once, and the normal model went on as told. -/
  | resolved (response : String) (model : Outcome)
  /-- No handler was left, which ended the session. -/
  | lost (outcome : Outcome)

/-- Starts a handler for a fault, and the next one outwards as long as they fail at once. Each is
of a table further out than the one before, so the fuel is enough when it counts the tables. -/
def engage : Nat → Scene → Target → Fault → Disposition → Handling × Scene
  | 0, c, _, f, _ =>
    let (outcome, c) := c.exhaust f
    (.lost outcome, c)
  | fuel + 1, c, target, f, d =>
    let (progress, c) := c.startHandler target f d
    match progress, c.session.faults.active with
    | .finished completion, some active =>
      let (outcome, c) := c.resolve active completion
      (.resolved target.response.name outcome, c)
    | .failed _, some active =>
      match c.escalate active with
      | (some next, c) => engage fuel c next f .triggered
      | (none, c) =>
        let (outcome, c) := c.exhaust f
        (.lost outcome, c)
    | _, _ => (.started target.response.name, c)

/-- Starts handlers for a fault from a response on. -/
def handle (c : Scene) (target : Target) (f : Fault) (d : Disposition) : Handling × Scene :=
  engage (c.session.faults.tables.length + 1) c target f d

/-- What became of a fault that was routed through the tables. -/
inductive Routing where
  | unhandled
  | queued
  | handled (handling : Handling)

/-- Routes a fault through the response tables. -/
def route (c : Scene) (f : Fault) : Routing × Scene :=
  let c := c.map fun session => { session with deliveries := session.deliveries + 1 }
  match c.session.faults.decide f (c.session.inReach f) with
  | .unhandled =>
    (.unhandled, c.map fun session => session.recordTrail (.fault f .unhandled none))
  | .queue =>
    let (dropped, faults) := c.session.faults.enqueue f
    let c := c.map fun session => { session with faults }
    let c := match dropped with
      | some old => c.map fun session => session.recordTrail (.fault old .dropped none)
      | none => c
    (.queued, c.map fun session => session.recordTrail (.fault f .queued none))
  | .preempt target =>
    let (displaced, c) := c.abandonHandler
    let c := match displaced with
      | some old => c.map fun session => session.recordTrail (.fault old .dropped none)
      | none => c
    let (handling, c) := c.handle target f .preempted
    (.handled handling, c)
  | .activate target =>
    let (handling, c) := c.handle target f .triggered
    (.handled handling, c)

/-- Handles the faults that waited, once no handler runs any longer, until one of them starts a
handler or ends the session. Otherwise the outcome stays that of the model. -/
def drain : List Fault → Outcome → Scene → Outcome × Scene
  | [], outcome, c => (outcome, c)
  | f :: rest, outcome, c =>
    if c.session.isRunning && !c.session.isSuspended then
      let c := c.map fun session =>
        { session with faults := { session.faults with pending := rest } }
      match c.route f with
      | (.handled (.started response), c) => (.handlerStarted response, c)
      | (.handled (.lost outcome), c) => (outcome, c)
      | (.handled (.resolved _ model), c) =>
        if model.isTerminal then (model, c) else drain rest outcome c
      | (_, c) => drain rest outcome c
    else (outcome, c)

/-- The outcome of handling a fault. Once the normal model has gone on, the faults that waited
have their turn. -/
def conclude (c : Scene) : Handling → Outcome × Scene
  | .started response => (.handlerStarted response, c)
  | .lost outcome => (outcome, c)
  | .resolved response model =>
    match drain c.session.faults.pending model c with
    | (.waiting, c) => (.faultResolved response, c)
    | (.advanced, c) => (.faultResolved response, c)
    | (outcome, c) => (outcome, c)

/-- Draws the consequence of what the active handler reports. -/
def settleHandler (c : Scene) (active : ActiveHandler) : Progress → Outcome × Scene
  | .waiting => (.waiting, c)
  | .advanced => (.advanced, c)
  | .finished completion =>
    let (model, c) := c.resolve active completion
    drain c.session.faults.pending model c
  | .failed _ =>
    match c.escalate active with
    | (some next, c) =>
      let (handling, c) := c.handle next active.fault .triggered
      c.conclude handling
    | (none, c) => c.exhaust active.fault

/-! Deliveries. -/

/-- Starts the normal model. -/
def start (c : Scene) : Except Error Outcome × Scene :=
  if c.session.status ≠ .created then (.error .alreadyRunning, c)
  else
    let c := c.map fun session =>
      { session.recordTrail (.started session.model.name) with status := .running }
    match c.session.engine.start c.stage with
    | .ok (progress, engine, s) =>
      let (outcome, c) :=
        ((c.onStage s).map fun session => { session with engine }).settleModel progress
      (.ok outcome, c)
    | .error e =>
      let (_, c) := c.fail e
      (.error e, c)

/-- Records an event and lets the engine that runs react to it. The end of the root task ends the
session. -/
def handleEvent (c : Scene) (e : Event) : Outcome × Scene :=
  if !c.session.isRunning then (.ignored, c)
  else
    let c := c.map fun session =>
      { session with
        deliveries := session.deliveries + 1
        core := { session.core with log := session.core.log.record e } }
    if e.task = c.session.root.id ∧ e.name.isTerminal then c.halt "root task ended"
    else
      match c.session.faults.active with
      | some active =>
        let (progress, engine, s) := active.engine.onEvent e c.stage
        let active := { active with engine }
        let c := (c.onStage s).map fun session =>
          { session with faults := { session.faults with active := some active } }
        c.settleHandler active progress
      | none =>
        let (progress, c) := c.runModel fun engine s => engine.onEvent e s
        c.settleModel progress

/-- Routes a fault and reports what came of it. -/
def handleFault (c : Scene) (f : Fault) : Outcome × Scene :=
  if !c.session.isRunning then (.ignored, c)
  else
    match c.route f with
    | (.unhandled, c) => (.faultUnhandled, c)
    | (.queued, c) => (.faultQueued, c)
    | (.handled handling, c) => c.conclude handling

def deliver (c : Scene) : Signal → Outcome × Scene
  | .event e => c.handleEvent e
  | .fault f => c.handleFault f

/-- Stops the session, retiring every child that it attached. -/
def stop (c : Scene) : Outcome × Scene :=
  match c.session.status with
  | .running => c.halt "stopped by owner"
  | .created => (.stopped, c.map fun session => { session with status := .stopped })
  | _ => (.ignored, c)

end Scene

end Conductor
