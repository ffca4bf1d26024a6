import Conductor.Ground

/-!
Reports on a plan: each task that was ever made, and the plan as a whole.
-/

namespace Conductor

/-- A handle in full: its identifier, a colon and its model. -/
def Handle.inFull (h : Handle) : Json := .str (h.id.text ++ ":" ++ h.model)

def Signal.toJson (s : Signal) : Json :=
  let content := match s with
    | event e => ("event", e.toJson)
    | fault f => ("fault", f.toJson)
  .obj [content, ("task", s.task.toJson)]

namespace Plan

def Attachment.toJson (a : Attachment) : Json := .arr [a.child.inFull, .str a.role]

/-- What is shown of the children of a task that has any. -/
def childrenReport (p : Plan) (task : TaskId) : List (String × Json) :=
  match p.childrenOf task with
  | [] => []
  | children =>
    [("children", .list Attachment.toJson children),
      ("running_children", .nat (p.runningChildren task))]

def taskReport (p : Plan) (task : TaskId) : Json :=
  let stopped := if p.wasStopped task then [("stopped", .bool true)] else []
  let emitted := match p.emittedOn task with
    | [] => []
    | names => [("emitted", .list EventName.toJson names)]
  .obj ([("state", .str (p.state task).display)] ++ stopped ++ p.childrenReport task ++ emitted)

/-- Every task under its identifier, and the plan under the name `plan`. -/
def report (p : Plan) : List (String × Json) :=
  (List.range p.made).map (fun n => ((idOf (n + 1)).text, p.taskReport (idOf (n + 1)))) ++
    [("plan", .obj [("instantiated", .list Handle.inFull p.instantiated),
      ("subscriptions", .nat p.subscriptions.size), ("pending", .nat p.outbox.length)])]

end Plan

def Ground.Reply.toJson : Ground.Reply → Json
  | done => .null
  | event e => e.toJson
  | fault f => f.toJson
  | handle h => h.inFull
  | value v => .orNull Value.toJson v
  | state s => .str s.display
  | tasks ids => .list TaskId.toJson ids
  | signals s => .list Signal.toJson s
  | truth b => .bool b

end Conductor
