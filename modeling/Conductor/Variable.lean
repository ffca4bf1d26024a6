import Conductor.Guard.Json

/-!
Variables. A declaration says how a variable obtains its value; an assignment writes one at the
boundary of a step.
-/

namespace Conductor

/-- How a variable obtains its value: it is fixed, it is an argument of the root, it is what a
step put out, or it has none until it is assigned. -/
inductive Rule where
  | constant (value : Value)
  | argument (name : String)
  | stepOutput (label : String)
  | assigned
deriving DecidableEq

/-- Declaration of a variable, with the kind its values must have if one is given. -/
structure Declaration where
  name : String
  kind : Option ValueKind
  rule : Rule
deriving DecidableEq

/-- Where an assigned value comes from: it is fixed, it is the payload of an observed event, it
is the task of the step, or it is copied from another variable. -/
inductive Assignment.Origin where
  | constant (value : Value)
  | payload (task : TaskRef) (event : EventName)
  | currentTask
  | copied (name : String)
deriving DecidableEq

structure Assignment where
  target : String
  origin : Assignment.Origin
deriving DecidableEq

/-- The fields of a record that stand only when they have a value. -/
def optionalField {α : Type} (name : String) (toJson : α → Json) : Option α → List (String × Json)
  | some a => [(name, toJson a)]
  | none => []

namespace Rule

def toJson : Rule → Json
  | constant value => .obj [("rule", .str "constant"), ("from", value.toJson)]
  | argument name => .obj [("rule", .str "argument"), ("from", .str name)]
  | stepOutput label => .obj [("rule", .str "step_output"), ("from", .str label)]
  | assigned => .obj [("rule", .str "assigned")]

/-- The forms of a rule. -/
def forms : List String := ["constant", "argument", "step_output", "assigned"]

/-- In an object the content of a rule comes before its name, since members are in the order of
their names, and is set aside; in an array it comes after. -/
def contentNaming : Json → Json.Naming
  | .obj _ => .loose
  | _ => .strict

def ofJson? (j : Json) : Option Rule := do
  match ← j.tagged? .strict forms "rule" "from" with
  | ("constant", some value) => (Value.read? (contentNaming j) value).map constant
  | ("argument", some name) => name.str?.map argument
  | ("step_output", some label) => label.str?.map stepOutput
  | ("assigned", content) => (Json.noContent? content).map fun _ => assigned
  | _ => none

end Rule

namespace Declaration

def toJson (d : Declaration) : Json :=
  .obj ([("name", .str d.name)] ++ optionalField "kind" Spelled.toJson d.kind ++
    [("resolution", d.rule.toJson)])

def ofJson? (j : Json) : Option Declaration := do
  match ← j.record? ["name", "kind", "resolution"] with
  | [some name, kind, some rule] =>
    return ⟨← name.str?, ← Json.optional Spelled.ofJson? kind, ← Rule.ofJson? rule⟩
  | _ => none

end Declaration

namespace Assignment

namespace Origin

def toJson : Origin → Json
  | constant value => .obj [("constant", value.toJson)]
  | payload task event =>
    .obj [("payload", .obj [("task", task.toJson), ("event", event.toJson)])]
  | currentTask => .str "current_task"
  | copied name => .obj [("variable", .str name)]

def ofJson? (j : Json) : Option Origin := do
  match ← j.choice? with
  | ("constant", some value) => (Value.ofJson? value).map constant
  | ("payload", some (.obj members)) =>
    match ← (Json.obj members).record? ["task", "event"] with
    | [some task, some event] => return payload (← TaskRef.ofJson? task) (← EventName.ofJson? event)
    | _ => none
  | ("current_task", content) => (Json.noContent? content).map fun _ => currentTask
  | ("variable", some name) => name.str?.map copied
  | _ => none

end Origin

def toJson (a : Assignment) : Json :=
  .obj [("variable", .str a.target), ("source", a.origin.toJson)]

def ofJson? (j : Json) : Option Assignment := do
  match ← j.record? ["variable", "source"] with
  | [some target, some origin] => return ⟨← target.str?, ← Origin.ofJson? origin⟩
  | _ => none

end Assignment

end Conductor
