import Conductor.Value

/-!
Values as JSON: a record of the kind and, except for null, the value. The kind of a value comes
before its content, so the items of a list are named as strictly as the list itself.
-/

namespace Conductor.Value

mutual

def toJson : Value → Json
  | null => .obj [("kind", .str "null")]
  | bool b => .obj [("kind", .str "bool"), ("value", .bool b)]
  | int n => .obj [("kind", .str "int"), ("value", .int n.toInt)]
  | text s => .obj [("kind", .str "text"), ("value", .str s)]
  | task h => .obj [("kind", .str "task"), ("value", h.toJson)]
  | list items => .obj [("kind", .str "list"), ("value", .arr (toJsonAll items))]

def toJsonAll : List Value → List Json
  | [] => []
  | v :: rest => toJson v :: toJsonAll rest

end

/-- A value of the kind with the given name. `items` has the readings of the items where the
content is an array. -/
def ofContent? (name : String) (content : Option Json) (items : Option (List Value)) :
    Option Value :=
  match (Spelled.ofName? name : Option ValueKind), content with
  | some .null, content => (Json.noContent? content).map fun _ => null
  | some .bool, some j => j.bool?.map bool
  | some .int, some j => j.int64?.map int
  | some .text, some j => j.str?.map text
  | some .task, some j => (Handle.ofJson? j).map task
  | some .list, some _ => items.map list
  | _, _ => none

mutual

/-- The value in a tree whose kinds are named as strictly as `naming` says. -/
def read? (naming : Json.Naming) : Json → Option Value
  | .obj members =>
    match Json.tagged? naming (Spelled.names ValueKind) "kind" "value" (.obj members) with
    | some (name, content) => ofContent? name content (memberItems? naming members)
    | none => none
  | .arr [kind, body] =>
    match naming.ofItem? (Spelled.names ValueKind) kind with
    | some name => ofContent? name (some body) (items? naming body)
    | none => none
  | _ => none

/-- The items of the first member named `value`. -/
def memberItems? (naming : Json.Naming) : List (String × Json) → Option (List Value)
  | [] => none
  | (name, j) :: rest => if name == "value" then items? naming j else memberItems? naming rest

/-- The values in an array of values. -/
def items? (naming : Json.Naming) : Json → Option (List Value)
  | .arr items => readAll? naming items
  | _ => none

def readAll? (naming : Json.Naming) : List Json → Option (List Value)
  | [] => some []
  | j :: rest =>
    match read? naming j, readAll? naming rest with
    | some v, some vs => some (v :: vs)
    | _, _ => none

end

def ofJson? : Json → Option Value := read? .strict

end Conductor.Value
