import Conductor.Document.Model
import Conductor.Ground
import Conductor.Session

/-!
Response tables, catalogs and sessions as documents.
-/

namespace Conductor

open Reading

def Response.ofDocument : Reading Response := fun j => do
  return ⟨← text "name" j, ← required (plain FaultPattern.ofJson?) "predicate" j,
    ← required Model.ofDocument "handler" j, ← defaulting (plain Json.int32?) 0 "priority" j,
    ← defaulting spelled .direct "scope" j, ← defaulting spelled .goOn "resumption" j,
    ← flag false "replaces" j⟩

def ResponseTable.ofDocument : Reading ResponseTable := fun j => do
  return .ofResponses (← text "name" j) (← listed Response.ofDocument "entries" j)

/-- A builder with its name. Unless its kind says otherwise it makes tasks of the model that the
text names. -/
def Builder.ofDocument : Reading (String × Builder) := fun j => do
  let name ← text "name" j
  let kind ← text "kind" j
  let content ← textOr "" "text" j
  return (name, match kind with
    | "reject" => reject content
    | "ghost" => fixed ⟨⟨content⟩, "Ghost"⟩
    | "started" => started content
    | "given" => given "task" "no task given"
    | _ => fresh content)

namespace Catalog

def addBuilders (c : Catalog) (builders : List (String × Builder)) : Catalog :=
  builders.foldl (fun c b => c.addBuilder b.1 b.2) c

def ofDocument : Reading Catalog := fun j => do
  let actions ← listed (plain Action.ofJson?) "actions" j
  let catalog ← valid (empty.registerAll actions)
  return catalog.addBuilders (← listed Builder.ofDocument "builders" j)

end Catalog

/-- A session for a root that is given by its position or as a handle. -/
def Session.ofDocument (g : Ground) (catalog : Catalog) (id : String) : Reading Session :=
  fun j => do
    let root ← match field? j "root" with
      | none => need (g.root? 0)
      | some (.int i) => need ((Json.int i).size?.bind g.root?)
      | some h => handleOf h
    let session := Session.new id root (← required Model.ofDocument "model" j)
    let session := match ← optional (plain Config.ofJson?) "config" j with
      | some config => session.withConfig config
      | none => session
    let tables ← listed ResponseTable.ofDocument "tables" j
    return tables.foldl withTable (session.withCatalog catalog)

end Conductor
