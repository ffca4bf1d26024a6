import Conductor.Variable

/-!
Actions: named, parameterized ways to describe a task. Binding checks the arguments against the
declared parameters and fills in defaults, so that a description holds a value for exactly the
declared names.
-/

namespace Conductor

/-- A task to be made: its task model and the arguments it gets. -/
structure Description where
  model : String
  arguments : Dict String Value
deriving DecidableEq

/-- A declared parameter; without a default it must be bound. -/
structure Parameter where
  name : String
  kind : Option ValueKind
  default : Option Value
deriving DecidableEq

def Parameter.isRequired (p : Parameter) : Bool := p.default.isNone

structure Action where
  name : String
  /-- The task model that the action makes. -/
  returns : String
  description : String
  parameters : List Parameter
deriving DecidableEq

/-- Why arguments do not fit an action. -/
inductive BindError where
  | unknownArgument (action argument : String)
  | missingArgument (action argument : String)
  | wrongKind (action argument : String) (expected actual : ValueKind)
deriving DecidableEq

def BindError.message : BindError → String
  | unknownArgument action argument => s!"action '{action}' has no argument '{argument}'"
  | missingArgument action argument =>
    s!"action '{action}' is missing required argument '{argument}'"
  | wrongKind action argument expected actual =>
    s!"argument '{argument}' of action '{action}' expects " ++ expected.display ++ ", got " ++
      actual.display

namespace Action

/-- Fills in the default of a parameter that is not bound, and checks the kind of its value. -/
def supply (a : Action) (arguments : Dict String Value) (p : Parameter) :
    Except BindError (Dict String Value) :=
  match arguments.get? p.name, p.default with
  | some value, _ => check arguments value
  | none, some value => check (arguments.insert p.name value) value
  | none, none => .error (.missingArgument a.name p.name)
where
  check (arguments : Dict String Value) (value : Value) :
      Except BindError (Dict String Value) :=
    match p.kind with
    | some kind =>
      if value.kind = kind then .ok arguments
      else .error (.wrongKind a.name p.name kind value.kind)
    | none => .ok arguments

/-- The first bound name that no parameter has. -/
def unknown? (a : Action) (bound : Dict String Value) : Option String :=
  bound.keys.find? fun name => !a.parameters.any fun p => p.name == name

/-- The description of the task that the action makes from the bound arguments. -/
def bind (a : Action) (bound : Dict String Value) : Except BindError Description :=
  match a.unknown? bound with
  | some name => .error (.unknownArgument a.name name)
  | none => (a.parameters.foldlM a.supply bound).map fun arguments => ⟨a.returns, arguments⟩

end Action

namespace Description

def toJson (d : Description) : Json :=
  .obj [("model", .str d.model),
    ("arguments", .obj (d.arguments.entries.map fun e => (e.1, e.2.toJson)))]

def ofJson? (j : Json) : Option Description := do
  match ← j.record? ["model", "arguments"] with
  | [some model, arguments] =>
    return ⟨← model.str?, ← Json.withDefault (Json.dict? Value.ofJson?) .empty arguments⟩
  | _ => none

end Description

namespace Parameter

def toJson (p : Parameter) : Json :=
  .obj ([("name", .str p.name)] ++ optionalField "kind" Spelled.toJson p.kind ++
    optionalField "default" Value.toJson p.default)

def ofJson? (j : Json) : Option Parameter := do
  match ← j.record? ["name", "kind", "default"] with
  | [some name, kind, value] =>
    return ⟨← name.str?, ← Json.optional Spelled.ofJson? kind,
      ← Json.optional Value.ofJson? value⟩
  | _ => none

end Parameter

namespace Action

def toJson (a : Action) : Json :=
  let description := if a.description.isEmpty then [] else [("description", .str a.description)]
  let parameters :=
    if a.parameters.isEmpty then [] else [("arguments", .arr (a.parameters.map Parameter.toJson))]
  .obj ([("name", .str a.name), ("returns", .str a.returns)] ++ description ++ parameters)

def ofJson? (j : Json) : Option Action := do
  match ← j.record? ["name", "returns", "description", "arguments"] with
  | [some name, some returns, description, parameters] =>
    return ⟨← name.str?, ← returns.str?, ← Json.withDefault Json.str? "" description,
      ← Json.withDefault (fun j => j.arr?.bind (·.mapM Parameter.ofJson?)) [] parameters⟩
  | _ => none

end Action

end Conductor
