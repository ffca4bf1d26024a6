import Conductor.Task

/-!
Completions: where a model ended, how, and the steps that led there. A script that went on after
its task failed, or a machine whose last transition left a failed task, has recovered from the
failure; otherwise the end is nominal.
-/

namespace Conductor

inductive CompletionKind where
  | nominal
  | failureRecovered
deriving DecidableEq

instance : Spelled CompletionKind where
  all := [.nominal, .failureRecovered]
  name
    | .nominal => "nominal"
    | .failureRecovered => "failure_recovered"

/-- The kind in running text. -/
def CompletionKind.display : CompletionKind → String
  | nominal => "Nominal"
  | failureRecovered => "FailureRecovered"

/-- Where a model ended. -/
inductive Ending where
  | scriptEnd (instructions : Nat)
  | state (id : String)
deriving DecidableEq

def Ending.display : Ending → String
  | scriptEnd instructions => s!"end of script ({instructions} instructions)"
  | state id => s!"state '{id}'"

/-- One step on the path of a model. -/
inductive Step where
  | advanced (pc : Nat) (label : String) (task : Option TaskId) (viaFailure : Bool)
  | skipped (pc : Nat) (label : String)
  /-- The position is that of the transition in the state it leaves. -/
  | transition (source target : String) (position : Nat) (viaFailure : Bool)
deriving DecidableEq

namespace Step

def viaFailure : Step → Bool
  | advanced _ _ _ via => via
  | skipped _ _ => false
  | transition _ _ _ via => via

def isSkipped : Step → Bool
  | skipped _ _ => true
  | _ => false

def isTransition : Step → Bool
  | transition .. => true
  | _ => false

end Step

structure Completion where
  model : String
  ending : Ending
  kind : CompletionKind
  path : List Step
deriving DecidableEq

namespace Completion

def isNominal (c : Completion) : Bool := c.kind == .nominal

/-- The transition that led to the end. -/
def lastTransition? (c : Completion) : Option Step := c.path.reverse.find? Step.isTransition

/-- How many steps were not skipped. -/
def stepsTaken (c : Completion) : Nat := c.path.countP fun s => !s.isSkipped

end Completion

namespace Ending

def toJson : Ending → Json
  | scriptEnd instructions =>
    .obj [("script_end", .obj [("instructions", .int instructions)])]
  | state id => .obj [("state", .str id)]

def ofJson? (j : Json) : Option Ending := do
  match ← j.choice? with
  | ("script_end", some (.obj members)) =>
    match Json.lookup "instructions" members with
    | some n => n.size?.map scriptEnd
    | none => none
  | ("state", some id) => id.str?.map state
  | _ => none

end Ending

namespace Step

def toJson : Step → Json
  | advanced pc label task via =>
    .obj [("advanced", .obj [("pc", .int pc), ("label", .str label),
      ("task", (task.map TaskId.toJson).getD .null), ("via_failure", .bool via)])]
  | skipped pc label => .obj [("skipped", .obj [("pc", .int pc), ("label", .str label)])]
  | transition source target position via =>
    .obj [("transition", .obj [("from", .str source), ("to", .str target),
      ("index", .int position), ("via_failure", .bool via)])]

def ofJson? (j : Json) : Option Step := do
  match ← j.choice? with
  | ("advanced", some (.obj members)) =>
    match ← (Json.obj members).record? ["pc", "label", "task", "via_failure"] with
    | [some pc, some label, task, some via] =>
      return advanced (← pc.size?) (← label.str?) (← Json.optional TaskId.ofJson? task)
        (← via.bool?)
    | _ => none
  | ("skipped", some (.obj members)) =>
    match ← (Json.obj members).record? ["pc", "label"] with
    | [some pc, some label] => return skipped (← pc.size?) (← label.str?)
    | _ => none
  | ("transition", some (.obj members)) =>
    match ← (Json.obj members).record? ["from", "to", "index", "via_failure"] with
    | [some source, some target, some position, some via] =>
      return transition (← source.str?) (← target.str?) (← position.size?) (← via.bool?)
    | _ => none
  | _ => none

end Step

def Completion.toJson (c : Completion) : Json :=
  .obj [("model", .str c.model), ("terminal", c.ending.toJson),
    ("kind", Spelled.toJson c.kind), ("path", .arr (c.path.map Step.toJson))]

end Conductor
