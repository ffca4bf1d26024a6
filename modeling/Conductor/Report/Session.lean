import Conductor.Report.Outcome
import Conductor.Report.Plan

/-!
Reports on sessions and on what they keep: values, interests, engines, slots and response tables.
-/

namespace Conductor

def valuesReport (values : Dict String Value) : Json :=
  .obj (values.entries.map fun e => (e.1, e.2.toJson))

namespace Interests

def pairJson (p : Interest) : Json := .arr [p.1.toJson, p.2.toJson]

/-- What each lane waits for. -/
def report (i : Interests) : Json :=
  .obj [("model", .list pairJson i.model.keys), ("handler", .list pairJson i.handler.keys)]

end Interests

def InterestChange.toJson : InterestChange → Json
  | subscribe task event => .arr [.str "subscribe", task.toJson, event.toJson]
  | unsubscribe task event => .arr [.str "unsubscribe", task.toJson, event.toJson]

/-- A numbered event of a known task. -/
def Log.entryReport (p : Nat × Event) : Json :=
  .arr [.nat p.1, p.2.name.toJson, .orNull Value.toJson p.2.payload]

def EngineStatus.name : EngineStatus → String
  | idle => "idle"
  | running => "running"
  | finished => "finished"
  | failed => "failed"
  | stopped => "stopped"

def Engine.report (e : Engine) : Json :=
  .obj [("name", .str e.name), ("status", .str e.status.name), ("running", .bool e.isRunning),
    ("scope", .nat e.course.depth), ("position", .str e.position),
    ("current", .orNull Handle.inFull e.task?), ("path", .list Step.toJson e.course.path)]

def Slots.report (s : Slots) : Json :=
  .obj [("root", s.root.inFull), ("children", .list Handle.inFull s.children),
    ("live", .list Json.nat [s.live.length, s.liveIn .model, s.liveIn .handler]),
    ("resolutions", .nat s.resolutions)]

def ResponseTable.phasesReport (t : ResponseTable) : Json :=
  .list (fun (e : Entry) => Spelled.toJson e.phase) t.entries

/-- The phase of every entry of every table. -/
def Dispatch.phasesReport (d : Dispatch) : Json := .list ResponseTable.phasesReport d.tables

/-- The position of a response: its table and its entry there. -/
def Target.position (t : Target) : List Json := [.nat t.table, .nat t.entry]

def Target.toJson (t : Target) : Json := .arr t.position

def Decision.toJson : Decision → Json
  | activate t => .arr (.str "activate" :: t.position)
  | preempt t => .arr (.str "preempt" :: t.position)
  | queue => .arr [.str "queue"]
  | unhandled => .arr [.str "unhandled"]

namespace ActiveHandler

def summary (a : ActiveHandler) : List Json := [.nat a.table, .nat a.entry, .int a.priority]

/-- A handler with its fault and the place where its engine is. -/
def report (a : ActiveHandler) : Json :=
  .arr (a.summary ++ [.str a.fault.display, .str a.engine.name, .str a.engine.position])

end ActiveHandler

namespace Status

def endReport (name : String) (c : Completion) : Json :=
  .obj [("status", .str name), ("terminal", .str c.ending.display), ("steps", .nat c.stepsTaken)]

def toJson : Status → Json
  | created => .str "created"
  | running => .str "running"
  | stopped => .str "stopped"
  | succeeded c => endReport "succeeded" c
  | recovered c => endReport "recovered" c
  | failed e => .obj [("status", .str "failed"), ("message", .str e.message)]

end Status

namespace Notice

def isSuccess : Notice → Bool
  | success _ => true
  | _ => false

def isRecovery : Notice → Bool
  | recovery _ => true
  | _ => false

def failure? : Notice → Option Error
  | failure e => some e
  | _ => none

def escalated? : Notice → Option Fault
  | escalated f => some f
  | _ => none

/-- What an owner has heard so far. -/
def report (notices : List Notice) : Json :=
  .obj [("successes", .nat (notices.countP isSuccess)),
    ("recoveries", .nat (notices.countP isRecovery)),
    ("failures", .list (fun e => .str e.message) (notices.filterMap failure?)),
    ("escalated", .list (fun f => .str f.display) (notices.filterMap escalated?))]

end Notice

/-- The state of a session, with the values of the given variables. -/
def Session.report (s : Session) (names : List String) : Json :=
  .obj [("status", s.status.toJson), ("position", .str s.engine.position),
    ("current", .orNull Handle.inFull s.engine.task?),
    ("handler", .arr [.orNull .str s.activeHandler?, .orNull Handle.inFull s.handlerTask?]),
    ("suspended", .bool s.isSuspended), ("pending_faults", .nat s.faults.pending.length),
    ("children", .list Handle.inFull s.core.slots.children),
    ("entries", s.faults.phasesReport), ("deliveries", .nat s.deliveries),
    ("logged", .nat s.core.log.cursor), ("subscriptions", s.core.interests.report),
    ("variables", .obj (names.map fun name => (name, .orNull Value.toJson (s.valueOf? name)))),
    ("observer", Notice.report s.notices)]

end Conductor
