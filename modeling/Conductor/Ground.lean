import Conductor.Plan

/-!
Grounds: a plan together with the roots that were made in it, and the commands by which the
outside world acts on it. Some commands are requests that the plan may refuse; others are things
that happen to tasks, whether the plan knows them or not.
-/

namespace Conductor

structure Ground where
  plan : Plan
  roots : List Handle
deriving DecidableEq

namespace Ground

def root? (g : Ground) (i : Nat) : Option Handle := g.roots[i]?

/-- Makes a root task, which becomes the next root. -/
def addRoot (g : Ground) (model : String) : Handle × Ground :=
  let (handle, plan) := g.plan.addRoot model
  (handle, ⟨plan, g.roots ++ [handle]⟩)

/-- A ground with roots of the given models, in order. -/
def ofRoots (plan : Plan) (models : List String) : Ground :=
  models.foldl (fun g model => (g.addRoot model).2) ⟨plan, []⟩

inductive Command where
  /-- An event is observed. -/
  | happen (task : Handle) (event : EventName) (payload : Option Value)
  /-- A fault is reported. -/
  | raise (task : Handle) (category : String)
  /-- An event takes effect without a report. -/
  | record (e : Event)
  | addRoot (model : String)
  | instantiate (d : Description)
  | start (task : Handle)
  | stop (task : Handle)
  | attach (parent task : Handle) (role : String)
  | detach (parent task : Handle) (role : String)
  | setArgument (task : Handle) (name : String) (value : Value)
  | setRootArgument (task : Handle) (name : String) (value : Value)
  | argument (task : Handle) (name : String)
  | emit (task : Handle) (event : EventName) (payload : Option Value)
  | state (task : Handle)
  | ancestry (task : Handle)
  | poll
  | subscribe (task : Handle) (event : EventName)
  | unsubscribe (task : Handle) (event : EventName)
  | isSubscribed (task : Handle) (event : EventName)
deriving DecidableEq

/-- What a command answers. -/
inductive Reply where
  | done
  | event (e : Event)
  | fault (f : Fault)
  | handle (h : Handle)
  | value (v : Option Value)
  | state (s : TaskState)
  | tasks (ids : List TaskId)
  | signals (s : List Signal)
  | truth (b : Bool)
deriving DecidableEq

/-- The ground after a request that the plan has granted. -/
def granted (g : Ground) (r : Except ProviderError Plan) : Except ProviderError (Reply × Ground) :=
  r.map fun plan => (.done, { g with plan })

def perform (g : Ground) : Command → Except ProviderError (Reply × Ground)
  | .happen task event payload =>
    let e : Event := ⟨task.id, event, payload⟩
    .ok (.event e, { g with plan := g.plan.observe e })
  | .raise task category =>
    let (fault, plan) := g.plan.raise task.id category
    .ok (.fault fault, { g with plan })
  | .record e => .ok (.done, { g with plan := g.plan.record e })
  | .addRoot model =>
    let (root, g) := g.addRoot model
    .ok (.handle root, g)
  | .instantiate d => (g.plan.instantiate d).map fun (h, plan) => (.handle h, { g with plan })
  | .start task => g.granted (g.plan.start task)
  | .stop task => g.granted (g.plan.stop task.id)
  | .attach parent task role => g.granted (g.plan.attach parent.id task role)
  | .detach parent task role => g.granted (g.plan.detach parent.id task role)
  | .setArgument task name value => g.granted (g.plan.setArgument task.id name value)
  | .setRootArgument task name value =>
    .ok (.done, { g with plan := g.plan.setRootArgument task.id name value })
  | .argument task name => .ok (.value (g.plan.argument? task.id name), g)
  | .emit task event payload => g.granted (g.plan.emit task.id event payload)
  | .state task => .ok (.state (g.plan.state task.id), g)
  | .ancestry task => .ok (.tasks (g.plan.ancestry task.id), g)
  | .poll =>
    let (signals, plan) := g.plan.poll
    .ok (.signals signals, { g with plan })
  | .subscribe task event => .ok (.done, { g with plan := g.plan.subscribe task.id event })
  | .unsubscribe task event => .ok (.done, { g with plan := g.plan.unsubscribe task.id event })
  | .isSubscribed task event => .ok (.truth (g.plan.isSubscribed task.id event), g)

end Ground

end Conductor
