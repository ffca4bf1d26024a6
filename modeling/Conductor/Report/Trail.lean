import Conductor.Trail

/-!
Reports on the records of a trail.
-/

namespace Conductor.Trail.Record

/-- The type of a record. -/
def typeName : Record → String
  | started _ => "ContextStarted"
  | resolved _ _ => "TaskResolved"
  | retired _ => "TaskRetired"
  | advanced _ _ => "InstructionAdvanced"
  | skipped _ _ => "InstructionSkipped"
  | transition _ _ => "TransitionFired"
  | finished _ _ => "ModelFinished"
  | failed _ _ => "ModelFailed"
  | fault _ _ _ => "FaultHandled"
  | stopped _ => "ContextStopped"

def members : Record → List (String × Json)
  | started model => [("model", .str model)]
  | resolved task role => [("task", task.id.toJson), ("role", .str role)]
  | retired task => [("task", task.id.toJson)]
  | advanced pc label => [("pc", .nat pc), ("label", .str label)]
  | skipped pc label => [("pc", .nat pc), ("label", .str label)]
  | transition source target => [("from", .str source), ("to", .str target)]
  | finished model kind => [("model", .str model), ("kind", Spelled.toJson kind)]
  | failed model reason => [("model", .str model), ("reason", .str reason)]
  | fault f disposition response =>
    [("origin", f.origin.toJson), ("category", .str f.category),
      ("outcome", Spelled.toJson disposition), ("entry", .orNull .str response)]
  | stopped reason => [("reason", .str reason)]

/-- A record with its tag and its line of text. -/
def toJson (r : Record) : Json :=
  .obj [("type", .obj [(r.typeName, .obj r.members)]), ("tag", .orNull .str r.tag?),
    ("text", .orNull .str r.text?)]

end Conductor.Trail.Record
