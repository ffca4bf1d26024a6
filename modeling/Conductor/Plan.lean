import Conductor.Error

/-!
A plan that owns tasks and reports what happens to them. Tasks are numbered in the order in which
they are made. Nothing happens by itself: the lifecycle of a task follows the events that are
recorded on it and the requests that reach the plan, and every observed event and raised fault
waits in the outbox until it is polled.
-/

namespace Conductor

/-- The words for an error about a task, which takes a task that can be shown. -/
def Handle.inWords (h : Handle) (error : String → ProviderError) : ProviderError :=
  match h.display? with
  | some shown => error shown
  | none => .unshowable h.id

namespace Plan

/-- What a plan knows of a task. -/
structure Task where
  state : TaskState
  arguments : Dict String Value
deriving DecidableEq

/-- A task under its parent, in the role it plays there. -/
structure Attachment where
  child : Handle
  role : String
deriving DecidableEq

def Attachment.isOf (a : Attachment) (task : TaskId) (role : String) : Bool :=
  a.child.id == task && a.role == role

end Plan

structure Plan where
  /-- How many tasks were ever made. -/
  made : Nat
  tasks : Dict TaskId Plan.Task
  /-- The attached children of each parent, in the order of attachment. -/
  children : Dict TaskId (List Plan.Attachment)
  /-- Tasks made from descriptions, in order. -/
  instantiated : List Handle
  /-- Tasks that were asked to stop. -/
  stopped : KeySet TaskId
  /-- Events emitted on request, the newest first. -/
  emitted : List (TaskId × EventName)
  /-- Signals that were not polled yet. -/
  outbox : List Signal
  subscriptions : KeySet (TaskId × EventName)
  /-- The task models that can be made, if they are limited. -/
  knownModels : Option (List String)
deriving DecidableEq

namespace Plan

def empty : Plan := ⟨0, .empty, .empty, [], .empty, [], [], .empty, none⟩

def withModels (p : Plan) (models : List String) : Plan := { p with knownModels := some models }

/-- The identifier of the task with the given number. -/
def idOf (n : Nat) : TaskId := ⟨"task-" ++ toString n⟩

/-- Makes a task. -/
def allocate (p : Plan) (model : String) (state : TaskState) (arguments : Dict String Value) :
    Handle × Plan :=
  let handle : Handle := ⟨idOf (p.made + 1), model⟩
  (handle, { p with made := p.made + 1, tasks := p.tasks.insert handle.id ⟨state, arguments⟩ })

/-- Makes a root task, which is running. -/
def addRoot (p : Plan) (model : String) : Handle × Plan := p.allocate model .running .empty

def task? (p : Plan) (task : TaskId) : Option Task := p.tasks.get? task

/-- The state of a task; one that the plan does not know counts as finalized. -/
def state (p : Plan) (task : TaskId) : TaskState :=
  match p.task? task with
  | some t => t.state
  | none => .finalized

def argument? (p : Plan) (task : TaskId) (name : String) : Option Value :=
  (p.task? task).bind fun t => t.arguments.get? name

/-- Where an event takes a task: an ended task can only be finalized. -/
def next (state : TaskState) (event : EventName) : TaskState :=
  if event = .stop then .finalized
  else if state.isTerminal then state
  else if event = .start then .running
  else if event = .success then .success
  else if event = .failed then .failed
  else state

/-- Applies an event to the lifecycle of its task. -/
def record (p : Plan) (e : Event) : Plan :=
  { p with tasks := p.tasks.modify e.task fun t => { t with state := next t.state e.name } }

def send (p : Plan) (signal : Signal) : Plan := { p with outbox := p.outbox ++ [signal] }

/-- Lets an event happen: it is recorded and reported. -/
def observe (p : Plan) (e : Event) : Plan := (p.record e).send (.event e)

def parent? (p : Plan) (task : TaskId) : Option TaskId :=
  (p.children.entries.find? fun e => e.2.any fun a => a.child.id == task).map Prod.fst

def climb (p : Plan) : Nat → List TaskId → TaskId → List TaskId
  | 0, chain, _ => chain
  | fuel + 1, chain, task =>
    match p.parent? task with
    | none => chain
    | some parent =>
      if parent ∈ chain then chain else climb p fuel (chain ++ [parent]) parent

/-- The tasks above a task, nearest first, up to the first repetition. Every step meets a new
parent, so there are no more steps than parents. -/
def ancestry (p : Plan) (task : TaskId) : List TaskId := p.climb p.children.size [] task

/-- Reports a fault on a task, with its ancestry. -/
def raise (p : Plan) (task : TaskId) (category : String) : Fault × Plan :=
  let fault : Fault := ⟨task, category, "", p.ancestry task⟩
  (fault, p.send (.fault fault))

/-- Writes an argument of a task; nothing happens to a task that the plan does not know. -/
def setRootArgument (p : Plan) (task : TaskId) (name : String) (value : Value) : Plan :=
  { p with tasks := p.tasks.modify task fun t =>
      { t with arguments := t.arguments.insert name value } }

/-! Requests, which the plan may refuse. -/

/-- Makes a pending task from a description. -/
def instantiate (p : Plan) (d : Description) : Except ProviderError (Handle × Plan) :=
  let known := match p.knownModels with
    | some models => models.contains d.model
    | none => true
  if known then
    let (handle, p) := p.allocate d.model .pending d.arguments
    .ok (handle, { p with instantiated := p.instantiated ++ [handle] })
  else .error (.unknownModel d.model)

/-- Starts a pending task. A task that is already under way is left alone. -/
def start (p : Plan) (task : Handle) : Except ProviderError Plan :=
  match p.task? task.id with
  | none => .error (.unknownTask task.id.text)
  | some t =>
    match t.state with
    | .pending =>
      .ok ({ p with tasks := p.tasks.insert task.id { t with state := .started } }.observe
        ⟨task.id, .start, none⟩)
    | .started | .running => .ok p
    | ended => .error (task.inWords fun shown =>
        .rejected (s!"cannot start {shown} in state " ++ ended.display))

/-- Asks a task to stop, which finalizes it unless it has ended. -/
def stop (p : Plan) (task : TaskId) : Except ProviderError Plan :=
  match p.task? task with
  | none => .error (.unknownTask task.text)
  | some t =>
    let state := if t.state.isTerminal then t.state else .finalized
    .ok { p with tasks := p.tasks.insert task { t with state }, stopped := p.stopped.add task }

/-- The attached children of a parent. -/
def childrenOf (p : Plan) (parent : TaskId) : List Attachment := (p.children.get? parent).getD []

/-- Attaches a child under a parent, in a role that it does not have there yet. -/
def attach (p : Plan) (parent : TaskId) (child : Handle) (role : String) :
    Except ProviderError Plan :=
  if !p.tasks.contains parent then .error (.unknownTask parent.text)
  else if !p.tasks.contains child.id then .error (.unknownTask child.id.text)
  else if (p.childrenOf parent).any fun a => a.isOf child.id role then
    .error (child.inWords fun shown => .alreadyAttached shown role)
  else
    .ok { p with children := p.children.insert parent (p.childrenOf parent ++ [⟨child, role⟩]) }

/-- Undoes an attachment. A parent without children is forgotten. -/
def detach (p : Plan) (parent : TaskId) (child : Handle) (role : String) :
    Except ProviderError Plan :=
  if (p.childrenOf parent).any fun a => a.isOf child.id role then
    match (p.childrenOf parent).eraseP fun a => a.isOf child.id role with
    | [] => .ok { p with children := p.children.erase parent }
    | rest => .ok { p with children := p.children.insert parent rest }
  else .error (child.inWords fun shown => .notAttached shown role)

/-- Writes an argument of a task. -/
def setArgument (p : Plan) (task : TaskId) (name : String) (value : Value) :
    Except ProviderError Plan :=
  if p.tasks.contains task then .ok (p.setRootArgument task name value)
  else .error (.unknownTask task.text)

/-- Emits an event on a task. -/
def emit (p : Plan) (task : TaskId) (event : EventName) (payload : Option Value) :
    Except ProviderError Plan :=
  if p.tasks.contains task then
    .ok ({ p with emitted := (task, event) :: p.emitted }.observe ⟨task, event, payload⟩)
  else .error (.unknownTask task.text)

/-! Reports. -/

def subscribe (p : Plan) (task : TaskId) (event : EventName) : Plan :=
  { p with subscriptions := p.subscriptions.add (task, event) }

def unsubscribe (p : Plan) (task : TaskId) (event : EventName) : Plan :=
  { p with subscriptions := p.subscriptions.erase (task, event) }

def isSubscribed (p : Plan) (task : TaskId) (event : EventName) : Bool :=
  p.subscriptions.contains (task, event)

/-- Takes the signals out of the outbox. -/
def poll (p : Plan) : List Signal × Plan := (p.outbox, { p with outbox := [] })

def wasStopped (p : Plan) (task : TaskId) : Bool := p.stopped.contains task

/-- How many attached children have not ended. -/
def runningChildren (p : Plan) (parent : TaskId) : Nat :=
  (p.childrenOf parent).countP fun a => !(p.state a.child.id).isTerminal

/-- The events emitted on a task on request, in order. -/
def emittedOn (p : Plan) (task : TaskId) : List EventName :=
  ((p.emitted.filter fun e => e.1 == task).map Prod.snd).reverse

end Plan

end Conductor
