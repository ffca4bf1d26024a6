import Conductor.Error

/-!
Documents: JSON objects that describe what there is to work with. A member that is null counts as
absent. A document is refused when it does not have the expected form, or when what it describes
is invalid.
-/

namespace Conductor

/-- Why a document is refused. -/
inductive Refusal where
  | malformed
  | invalid (error : Error)
deriving DecidableEq

/-- A way to read a document or a part of one. -/
abbrev Reading (α : Type) := Json → Except Refusal α

namespace Reading

def need {α : Type} : Option α → Except Refusal α
  | some a => .ok a
  | none => .error .malformed

/-- What has to be valid beyond its form. -/
def valid {α : Type} : Except Error α → Except Refusal α
  | .ok a => .ok a
  | .error e => .error (.invalid e)

/-- A member that is there and not null. -/
def field? (j : Json) (name : String) : Option Json :=
  (j.member? name).filter fun v => !v.isNull

def plain {α : Type} (read : Json → Option α) : Reading α := fun j => need (read j)

def required {α : Type} (read : Reading α) (name : String) : Reading α := fun j =>
  (need (field? j name)).bind read

def optional {α : Type} (read : Reading α) (name : String) : Reading (Option α) := fun j =>
  match field? j name with
  | some v => (read v).map some
  | none => .ok none

def defaulting {α : Type} (read : Reading α) (value : α) (name : String) : Reading α := fun j =>
  (optional read name j).map fun a => a.getD value

def items {α : Type} (read : Reading α) : Reading (List α) := fun j =>
  (need j.arr?).bind fun js => js.mapM read

/-- A list, which is empty when it is absent. -/
def listed {α : Type} (read : Reading α) : String → Reading (List α) := defaulting (items read) []

def member {α : Type} (read : Reading α) (m : String × Json) : Except Refusal (String × α) :=
  (read m.2).map (m.1, ·)

/-- A map, which is empty when it is absent. -/
def mapped {α : Type} (read : Reading α) : String → Reading (Dict String α) :=
  defaulting (fun j => (need j.obj?).bind fun ms => (ms.mapM (member read)).map Dict.ofList) .empty

def text : String → Reading String := required (plain Json.str?)

def textOr (value : String) : String → Reading String := defaulting (plain Json.str?) value

def texts : String → Reading (List String) := listed (plain Json.str?)

def size : String → Reading Nat := required (plain Json.size?)

def sizeOr (value : Nat) : String → Reading Nat := defaulting (plain Json.size?) value

def flag (value : Bool) : String → Reading Bool := defaulting (plain Json.bool?) value

def spelled {α : Type} [Spelled α] : Reading α := plain Spelled.ofJson?

def taskIdOf : Reading TaskId := plain TaskId.ofJson?

def eventNameOf : Reading EventName := plain EventName.ofJson?

def handleOf : Reading Handle := plain Handle.ofJson?

def valueOf : Reading Value := plain Value.ofJson?

def guardOf : Reading Guard := plain Guard.ofJson?

/-- A task by its identifier, or by its handle. -/
def taskOf : Reading TaskId
  | .str id => .ok ⟨id⟩
  | j => (handleOf j).map Handle.id

end Reading

open Reading

def Description.ofDocument : Reading Description := fun j => do
  return ⟨← text "model" j, ← mapped valueOf "arguments" j⟩

def Event.ofDocument : Reading Event := fun j => do
  return ⟨← required taskOf "task" j, ← required eventNameOf "event" j,
    ← optional valueOf "payload" j⟩

def Fault.ofDocument : Reading Fault := fun j => do
  return ⟨← required taskOf "origin" j, ← text "category" j, ← textOr "" "message" j,
    ← listed taskOf "ancestry" j⟩

/-- The declared variables of a model. -/
def Declaration.allOfDocument : Reading (List Declaration) :=
  listed (plain Declaration.ofJson?) "variables"

end Conductor
