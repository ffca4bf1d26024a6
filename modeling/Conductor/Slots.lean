import Conductor.Catalog
import Conductor.Interests
import Conductor.Scopes
import Conductor.Source

/-!
Slots: the live children of a session's root. A slot is one step of one activation in a lane. It
is filled by resolving a source, which attaches the task under the root in a role of the slot's
own, and it is emptied by retiring it, which stops the task unless another slot holds it too.
-/

namespace Conductor

/-- One step of one activation in a lane. -/
structure SlotKey where
  lane : Lane
  step : String
  activation : Nat
deriving DecidableEq

/-- The role of a slot's task: prefix, lane, step and activation. -/
def SlotKey.role (key : SlotKey) (rolePrefix : String) : String :=
  rolePrefix ++ "/" ++ key.lane.display ++ "/" ++ key.step ++ "#" ++ toString key.activation

/-- A filled slot. -/
structure Slot where
  key : SlotKey
  handle : Handle
  role : String
deriving DecidableEq

structure Slots where
  /-- The task under which children are attached. -/
  root : Handle
  rolePrefix : String
  /-- Filled slots in the order in which they were filled. -/
  live : List Slot
  /-- Every task that a slot was ever filled with, the newest first. -/
  filled : List Handle
deriving DecidableEq

namespace Slots

def new (root : Handle) (rolePrefix : String) : Slots := ⟨root, rolePrefix, [], []⟩

/-- How many slots were ever filled. -/
def resolutions (s : Slots) : Nat := s.filled.length

def slot? (s : Slots) (key : SlotKey) : Option Slot := s.live.find? fun c => c.key == key

def isLive (s : Slots) (key : SlotKey) : Bool := (s.slot? key).isSome

def children (s : Slots) : List Handle := s.live.map Slot.handle

def isChild (s : Slots) (task : TaskId) : Bool := s.live.any fun c => c.handle.id == task

/-- How many slots of a lane are filled. -/
def liveIn (s : Slots) (lane : Lane) : Nat := s.live.countP fun c => c.key.lane == lane

/-! Filling slots. -/

/-- The values that arguments are bound to, read in the order of their names. -/
def bindArguments (argument? : String → Option Value) :
    List (String × Argument) → Dict String Value → Scopes →
      Except Error (Dict String Value) × Scopes
  | [], bound, scopes => (.ok bound, scopes)
  | (name, .value v) :: rest, bound, scopes =>
    bindArguments argument? rest (bound.insert name v) scopes
  | (name, .read variable_) :: rest, bound, scopes =>
    match scopes.get argument? variable_ with
    | .ok (v, scopes) => bindArguments argument? rest (bound.insert name v) scopes
    | .error e => (.error e, scopes)

/-- Makes the described task. -/
def make (p : Plan) (d : Description) (inWords : ProviderError → Unresolvable) :
    Except Error Handle × Plan :=
  match p.instantiate d with
  | .ok (handle, p) => (.ok handle, p)
  | .error e => (.error (.unresolvableSource (inWords e)), p)

/-- Obtains a task from a source. -/
def produce (catalog : Catalog) (root : TaskId) (source : Source) (scopes : Scopes) (p : Plan) :
    Except Error Handle × Scopes × Plan :=
  match source with
  | .action name arguments =>
    match catalog.actions.get? name with
    | none => (.error (.unresolvableSource (.noAction name)), scopes, p)
    | some action =>
      match bindArguments (p.argument? root) arguments.entries .empty scopes with
      | (.error e, scopes) => (.error e, scopes, p)
      | (.ok bound, scopes) =>
        match action.bind bound with
        | .error e => (.error (.unresolvableSource (.binding e)), scopes, p)
        | .ok d =>
          let (result, p) := make p d (.action name)
          (result, scopes, p)
  | .builder name arguments =>
    match catalog.builders.get? name with
    | none => (.error (.unresolvableSource (.noBuilder name)), scopes, p)
    | some build =>
      match bindArguments (p.argument? root) arguments.entries .empty scopes with
      | (.error e, scopes) => (.error e, scopes, p)
      | (.ok bound, scopes) =>
        match build bound p with
        | (.ok handle, p) => (.ok handle, scopes, p)
        | (.error e, p) => (.error (.unresolvableSource (.builder name e)), scopes, p)
  | .held name =>
    match scopes.get (p.argument? root) name with
    | .error e => (.error e, scopes, p)
    | .ok (value, scopes) =>
      match value.task? with
      | some handle => (.ok handle, scopes, p)
      | none => (.error (.notATask name), scopes, p)
  | .plan name d =>
    let (result, p) := make p d (.plan name)
    (result, scopes, p)

/-- Fills a slot from a source and attaches the task. A slot that is filled already keeps its
task, and nothing else changes. -/
def resolve (s : Slots) (catalog : Catalog) (key : SlotKey) (source : Source) (scopes : Scopes)
    (p : Plan) : Except Error Handle × Slots × Scopes × Plan :=
  match s.slot? key with
  | some slot => (.ok slot.handle, s, scopes, p)
  | none =>
    match produce catalog s.root.id source scopes p with
    | (.error e, scopes, p) => (.error e, s, scopes, p)
    | (.ok handle, scopes, p) =>
      match p.attach s.root.id handle (key.role s.rolePrefix) with
      | .error e => (.error (.provider e), s, scopes, p)
      | .ok p =>
        let slot : Slot := ⟨key, handle, key.role s.rolePrefix⟩
        (.ok handle, { s with live := s.live ++ [slot], filled := handle :: s.filled },
          scopes, p)

/-! Emptying slots. What the plan refuses here is of no consequence. -/

/-- Stops the task of a slot that was emptied, unless it has ended or another slot holds it, and
detaches it from the slot's role. -/
def release (s : Slots) (slot : Slot) (p : Plan) : Plan :=
  let p :=
    if s.isChild slot.handle.id || (p.state slot.handle.id).isTerminal then p
    else (p.stop slot.handle.id).toOption.getD p
  (p.detach s.root.id slot.handle slot.role).toOption.getD p

/-- Empties a slot, if it is filled. -/
def retire (s : Slots) (key : SlotKey) (p : Plan) : Option Handle × Slots × Plan :=
  match s.slot? key with
  | none => (none, s, p)
  | some slot =>
    let s := { s with live := s.live.eraseP fun c => c.key == key }
    (some slot.handle, s, s.release slot p)

/-- Empties the given slots one after the other. -/
def releaseAll (s : Slots) : List Slot → Plan → List Handle × Slots × Plan
  | [], p => ([], s, p)
  | slot :: rest, p =>
    let s := { s with live := s.live.erase slot }
    let (handles, s, p) := s.releaseAll rest (s.release slot p)
    (slot.handle :: handles, s, p)

/-- Empties the slots of a lane, the newest first. -/
def retireLane (s : Slots) (lane : Lane) (p : Plan) : List Handle × Slots × Plan :=
  s.releaseAll (s.live.filter fun c => c.key.lane == lane).reverse p

/-- Empties every slot, those of the handler first. -/
def retireAll (s : Slots) (p : Plan) : List Handle × Slots × Plan :=
  let (handlers, s, p) := s.retireLane .handler p
  let (models, s, p) := s.retireLane .model p
  (handlers ++ models, s, p)

end Slots

end Conductor
