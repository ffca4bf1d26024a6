import Conductor.Fault.Table
import Conductor.Machine

/-!
Reports on models and responses, where sources and guards are shown in words.
-/

namespace Conductor

def ExitAction.toJson : ExitAction → Json
  | assign a => a.toJson
  | emit event => event.toJson

def Instruction.toJson (i : Instruction) : Json :=
  .obj [("label", .str i.label), ("source", .orNull (fun s => .str s.label) i.source),
    ("entry", .orNull (fun g => .str g.display) i.entryGuard),
    ("exit", .str i.exitGuard.display), ("on_exit", .list ExitAction.toJson i.onExit)]

def Transition.toJson (t : Transition) : Json :=
  .arr [.str t.guard.display, .str t.target, .list Assignment.toJson t.updates]

def Forward.toJson (f : Forward) : Json := .arr [f.event.toJson, f.emitted.toJson]

def State.toJson (s : State) : Json :=
  .obj [("id", .str s.id), ("source", .orNull (fun o => .str o.label) s.source),
    ("terminal", .bool s.terminal), ("final_marker", .bool s.isFinalMarker),
    ("transitions", .list Transition.toJson s.transitions),
    ("forwards", .list Forward.toJson s.forwards)]

def Script.members (s : Script) : List (String × Json) :=
  [("name", .str s.name), ("len", .nat s.instructions.length),
    ("empty", .bool s.instructions.isEmpty),
    ("variables", .list Declaration.toJson s.vars),
    ("instructions", .list Instruction.toJson s.instructions)]

def Machine.members (m : Machine) : List (String × Json) :=
  [("name", .str m.name), ("initial", .str m.initial),
    ("variables", .list Declaration.toJson m.vars),
    ("initial_state", .orNull (fun s => .str s.id) m.initialState?),
    ("terminal_states", .list (fun s => .str s.id) m.terminalStates),
    ("states", .list State.toJson m.states)]

def Response.toJson (r : Response) : Json :=
  .arr [.str r.name, .str r.handler.name, .int r.priority, Spelled.toJson r.reach,
    Spelled.toJson r.resumption, .bool r.replaces, .nat r.handler.vars.length]

/-- A table, with the priority of the entry at a position. -/
def ResponseTable.report (t : ResponseTable) (entry : Nat) : Json :=
  .arr [.str t.name, .nat t.entries.length, .bool t.entries.isEmpty,
    .list (fun r => .str r.name) t.responses,
    .orNull (fun r => .int r.priority) (t.response? entry)]

end Conductor
