import Conductor.Guard

/-!
Guards as JSON: a guard is a choice between named forms, a leaf a record that names its form, and
a task reference a record of a name and, for a variable, the variable.
-/

namespace Conductor

namespace TaskRef

def toJson : TaskRef → Json
  | current => .obj [("ref", .str "current")]
  | root => .obj [("ref", .str "root")]
  | held name => .obj [("ref", .str "variable"), ("name", .str name)]

/-- The forms of a reference. -/
def forms : List String := ["current", "root", "variable"]

def read? (naming : Json.Naming) (j : Json) : Option TaskRef := do
  match ← j.tagged? naming forms "ref" "name" with
  | ("current", content) => (Json.noContent? content).map fun _ => current
  | ("root", content) => (Json.noContent? content).map fun _ => root
  | ("variable", some name) => name.str?.map held
  | _ => none

def ofJson? : Json → Option TaskRef := read? .strict

end TaskRef

namespace Leaf

def toJson : Leaf → Json
  | emitted task event =>
    .obj [("leaf", .str "emitted"), ("task", task.toJson), ("event", event.toJson)]
  | equals name value =>
    .obj [("leaf", .str "variable_equals"), ("name", .str name), ("value", value.toJson)]

def ofJson? (j : Json) : Option Leaf := do
  match ← j.form? "leaf" with
  | ("emitted", body) =>
    match ← body.record? ["task", "event"] with
    | [some task, some event] =>
      return emitted (← TaskRef.read? .loose task) (← EventName.ofJson? event)
    | _ => none
  | ("variable_equals", body) =>
    match ← body.record? ["name", "value"] with
    | [some name, some value] => return equals (← name.str?) (← Value.read? .loose value)
    | _ => none
  | _ => none

end Leaf

namespace Guard

mutual

def toJson : Guard → Json
  | always => .str "always"
  | leaf l => .obj [("leaf", l.toJson)]
  | all guards => .obj [("all", .arr (toJsonAll guards))]
  | any guards => .obj [("any", .arr (toJsonAll guards))]
  | not guard => .obj [("not", toJson guard)]

def toJsonAll : List Guard → List Json
  | [] => []
  | g :: rest => toJson g :: toJsonAll rest

end

/-- A guard of the form with the given name. `inner` is the reading of the content as a guard,
`items` its reading as an array of guards. -/
def ofContent? (name : String) (content : Json) (inner : Option Guard)
    (items : Option (List Guard)) : Option Guard :=
  match name with
  | "always" => (Json.noContent? (some content)).map fun _ => always
  | "leaf" => (Leaf.ofJson? content).map leaf
  | "all" => items.map all
  | "any" => items.map any
  | "not" => inner.map not
  | _ => none

mutual

def ofJson? : Json → Option Guard
  | .str name => if name == "always" then some always else none
  | .obj [(name, content)] => ofContent? name content (ofJson? content) (items? content)
  | _ => none

/-- The guards in an array of guards. -/
def items? : Json → Option (List Guard)
  | .arr items => ofJsonAll? items
  | _ => none

def ofJsonAll? : List Json → Option (List Guard)
  | [] => some []
  | j :: rest =>
    match ofJson? j, ofJsonAll? rest with
    | some g, some gs => some (g :: gs)
    | _, _ => none

end

end Guard

end Conductor
