import Conductor.Guard.Evaluation
import Conductor.Slots
import Conductor.Trail

/-!
The stage of a running model: the plan, and what a session keeps beside its engines. An engine
touches the world through the operations of this module only.
-/

namespace Conductor

/-- What a session keeps beside its engines. -/
structure Core where
  catalog : Catalog
  scopes : Scopes
  slots : Slots
  log : Log
  interests : Interests
  trail : Trail

structure Stage extends Core where
  plan : Plan

/-- The task that guards call `current`, and where the window of observed events opens. -/
structure Focus where
  task : Option TaskId
  since : Nat
deriving DecidableEq

namespace Stage

def root (s : Stage) : TaskId := s.slots.root.id

def recordTrail (s : Stage) (r : Trail.Record) : Stage := { s with trail := s.trail.record r }

/-! Tasks. -/

/-- Fills a slot from a source and makes sure that its task is started. -/
def resolve (s : Stage) (key : SlotKey) (source : Source) : Except Error Handle × Stage :=
  match s.slots.resolve s.catalog key source s.scopes s.plan with
  | (.error e, slots, scopes, plan) => (.error e, { s with slots, scopes, plan })
  | (.ok handle, slots, scopes, plan) =>
    let trail :=
      if s.slots.isLive key then s.trail
      else s.trail.record (.resolved handle (key.role s.slots.rolePrefix))
    let s := { s with slots, scopes, plan, trail }
    if (plan.state handle.id).isPending then
      match plan.start handle with
      | .ok plan => (.ok handle, { s with plan })
      | .error e => (.error (.provider e), s)
    else (.ok handle, s)

/-- Empties a slot. -/
def retire (s : Stage) (key : SlotKey) : Stage :=
  match s.slots.retire key s.plan with
  | (some handle, slots, plan) => { s with slots, plan }.recordTrail (.retired handle)
  | (none, _, _) => s

/-- Empties the slots of a lane and drops its interests. -/
def retireLane (s : Stage) (lane : Lane) : Stage :=
  let (handles, slots, plan) := s.slots.retireLane lane s.plan
  { s with
    slots, plan
    trail := s.trail.recordAll (handles.map .retired)
    interests := s.interests.clear lane }

/-- Empties every slot and drops every interest. -/
def retireAll (s : Stage) : Stage :=
  let (handles, slots, plan) := s.slots.retireAll s.plan
  { s with
    slots, plan
    trail := s.trail.recordAll (handles.map .retired)
    interests := s.interests.clearAll }

/-! Guards. -/

/-- Reads a variable; nothing changes where the read fails. -/
def read (s : Stage) (name : String) : Except Error (Value × Stage) :=
  (s.scopes.get (s.plan.argument? s.root) name).map fun (v, scopes) => (v, { s with scopes })

/-- The values of those variables that can be read. -/
def readAll : List String → Dict String Value → Stage → Dict String Value × Stage
  | [], values, s => (values, s)
  | name :: rest, values, s =>
    match s.read name with
    | .ok (v, s) => readAll rest (values.insert name v) s
    | .error _ => readAll rest values s

/-- What a guard is decided against, once its variables are read. -/
def view (s : Stage) (guard : Guard) (focus : Focus) : View × Stage :=
  let (vars, s) := readAll guard.vars .empty s
  (⟨s.log, s.root, focus.task, focus.since, vars⟩, s)

def evaluate (s : Stage) (guard : Guard) (focus : Focus) (memo : Memo) : Truth × Memo × Stage :=
  let (view, s) := s.view guard focus
  let (truth, memo) := guard.evaluate view memo
  (truth, memo, s)

/-- The events that guards depend on. -/
def interestsOf (focus : Focus) :
    List Guard → KeySet Interest → Stage → KeySet Interest × Stage
  | [], wanted, s => (wanted, s)
  | guard :: rest, wanted, s =>
    let (view, s) := s.view guard focus
    interestsOf focus rest ((guard.interests view).foldl KeySet.add wanted) s

/-- Makes a lane wait for what its guards depend on and for the end of the step's own task. -/
def subscribe (s : Stage) (lane : Lane) (guards : List Guard) (focus : Focus)
    (own : Option TaskId) : Stage :=
  let (wanted, s) := interestsOf focus guards .empty s
  let ends := match own with
    | some task => EventName.terminals.map (task, ·)
    | none => []
  { s with interests := s.interests.replace lane (ends.foldl KeySet.add wanted) }

/-! Effects. -/

/-- What the latest such event carried, or null. -/
def payload (s : Stage) (task : Option TaskId) (event : EventName) (since : Nat) : Value :=
  (task.bind fun id => s.log.payload? id event since).getD .null

/-- The value that an assignment writes. -/
def origin (s : Stage) (o : Assignment.Origin) (focus : Focus) (task : Option Handle) :
    Except Error (Value × Stage) :=
  match o with
  | .constant value => .ok (value, s)
  | .payload .current event => .ok (s.payload focus.task event focus.since, s)
  | .payload .root event => .ok (s.payload (some s.root) event focus.since, s)
  | .payload (.held name) event =>
    (s.read name).map fun (v, s) => (s.payload (v.task?.map Handle.id) event focus.since, s)
  | .currentTask => .ok ((task.map Value.task).getD .null, s)
  | .copied name => s.read name

/-- Makes an assignment at the boundary of a step. -/
def assign (s : Stage) (a : Assignment) (focus : Focus) (task : Option Handle) :
    Except Error Unit × Stage :=
  match s.origin a.origin focus task with
  | .error e => (.error e, s)
  | .ok (value, s) =>
    match s.scopes.set a.target value with
    | .error e => (.error e, s)
    | .ok scopes => (.ok (), { s with scopes })

/-- Emits an event on the root. -/
def emitOnRoot (s : Stage) (event : EventName) (payload : Option Value) :
    Except Error Unit × Stage :=
  match s.plan.emit s.root event payload with
  | .error e => (.error (.provider e), s)
  | .ok plan => (.ok (), { s with plan })

end Stage

end Conductor
