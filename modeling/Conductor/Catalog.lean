import Conductor.Plan
import Conductor.Text.Quoted

/-!
Catalogs: the named ways in which a session can obtain tasks. Actions describe a task that the
plan then makes; builders make one themselves.
-/

namespace Conductor

/-- Makes a task from bound arguments. -/
abbrev Builder := Dict String Value → Plan → Except ProviderError Handle × Plan

namespace Builder

/-- Refuses. -/
def reject (reason : String) : Builder := fun _ p => (.error (.rejected reason), p)

/-- Hands out a fixed handle without asking the plan. -/
def fixed (handle : Handle) : Builder := fun _ p => (.ok handle, p)

/-- Makes a task of the given model from the arguments. -/
def fresh (model : String) : Builder := fun arguments p =>
  match p.instantiate ⟨model, arguments⟩ with
  | .ok (handle, p) => (.ok handle, p)
  | .error e => (.error e, p)

/-- Makes a task of the given model and starts it. -/
def started (model : String) : Builder := fun arguments p =>
  match p.instantiate ⟨model, arguments⟩ with
  | .ok (handle, p) =>
    match p.start handle with
    | .ok p => (.ok handle, p)
    | .error e => (.error e, p)
  | .error e => (.error e, p)

/-- Hands out the task in an argument, or refuses for the given reason. -/
def given (argument reason : String) : Builder := fun arguments p =>
  match (arguments.get? argument).bind Value.task? with
  | some handle => (.ok handle, p)
  | none => (.error (.rejected reason), p)

end Builder

structure Catalog where
  actions : Dict String Action
  builders : Dict String Builder

namespace Catalog

def empty : Catalog := ⟨.empty, .empty⟩

/-- Adds an action, whose name must be new. -/
def register (actions : Dict String Action) (a : Action) : Except Error (Dict String Action) :=
  if actions.contains a.name then .error (.invalidModel (.actionTwice a.name))
  else .ok (actions.insert a.name a)

/-- Adds a builder in place of any other of that name. -/
def addBuilder (c : Catalog) (name : String) (b : Builder) : Catalog :=
  { c with builders := c.builders.insert name b }

/-- Adds actions in turn. -/
def registerAll (c : Catalog) (actions : List Action) : Except Error Catalog :=
  (actions.foldlM register c.actions).map fun actions => { c with actions }

/-- The builders in words: their names in order, each in quotes. -/
def describeBuilders (c : Catalog) : String :=
  "BuilderRegistry \x7b builders: [" ++ ", ".intercalate (c.builders.keys.map Text.quoted) ++
    "] \x7d"

end Catalog

end Conductor
