import Conductor.Json.Reader

/-!
Settings of sessions and hubs, read from JSON with a default for each field.

A settings text is stricter than a settings tree: each field may stand once, and members that
name no field are skipped with their values, which may then hold unpaired surrogates.
-/

namespace Conductor

/-- Settings of a session. -/
structure Config where
  /-- How many faults wait while a handler runs; the oldest is dropped when there is no room. -/
  pendingLimit : Nat := 16
  /-- Whether the trail is kept. -/
  keepsTrail : Bool := true
  /-- What the roles of attached children begin with. -/
  rolePrefix : String := "coordination"
deriving DecidableEq

/-- Settings of a hub. -/
structure HubConfig where
  /-- A run stops after this many deliveries. -/
  maxDeliveries : Nat := 10000
deriving DecidableEq

inductive ConfigError where
  | malformed
  | emptyRolePrefix
  | slashInRolePrefix
deriving DecidableEq

def ConfigError.message : ConfigError → String
  | malformed => "Malformed configuration"
  | emptyRolePrefix => "Invalid configuration value for 'role_prefix': must not be empty"
  | slashInRolePrefix => "Invalid configuration value for 'role_prefix': must not contain '/'"

namespace Config

def fields : List String := ["pending_fault_limit", "record_provenance", "role_prefix"]

def toJson (c : Config) : Json :=
  .obj [("pending_fault_limit", .int c.pendingLimit), ("record_provenance", .bool c.keepsTrail),
    ("role_prefix", .str c.rolePrefix)]

def ofJson? (j : Json) : Option Config := do
  match ← j.record? fields with
  | [limit, keeps, role] =>
    let base : Config := {}
    return ⟨← Json.withDefault Json.size? base.pendingLimit limit,
      ← Json.withDefault Json.bool? base.keepsTrail keeps,
      ← Json.withDefault Json.str? base.rolePrefix role⟩
  | _ => none

/-- A role prefix is not empty and has no slash, so that it ends where a role's first slash is. -/
def validate (c : Config) : Except ConfigError Unit :=
  if c.rolePrefix.isEmpty then .error .emptyRolePrefix
  else if '/' ∈ c.rolePrefix.toList then .error .slashInRolePrefix
  else .ok ()

/-- The members of a settings object, whose opening brace has been read. -/
def members? (s : List Char) : Option (List (String × Json) × List Char) :=
  match Json.Reader.skipBlank s with
  | '\x7d' :: rest => some ([], rest)
  | s =>
    let value (name : String) : Json.Reader.Parse Json :=
      Json.Reader.value (if name ∈ fields then none else some '\uFFFD') (s.length + 1)
    Json.Reader.membersWith none value s.length s

/-- Whether each field stands at most once. -/
def fieldsOnce (members : List (String × Json)) : Bool :=
  fields.all fun name => members.countP (fun m => m.1 == name) ≤ 1

/-- The tree of a settings text. -/
def tree? (text : String) : Option Json :=
  match Json.Reader.skipBlank text.toList with
  | '\x7b' :: rest =>
    match members? rest with
    | some (members, rest) =>
      if fieldsOnce members && (Json.Reader.skipBlank rest).isEmpty then some (.obj members)
      else none
    | none => none
  | _ => Json.parse? text

/-- The settings in a text, if it is well formed and they are valid. -/
def read (text : String) : Except ConfigError Config :=
  match (tree? text).bind ofJson? with
  | none => .error .malformed
  | some c => c.validate.map fun _ => c

end Config

namespace HubConfig

def toJson (c : HubConfig) : Json := .obj [("max_deliveries_per_run", .int c.maxDeliveries)]

def ofJson? (j : Json) : Option HubConfig := do
  match ← j.record? ["max_deliveries_per_run"] with
  | [cap] =>
    let base : HubConfig := {}
    return ⟨← Json.withDefault Json.size? base.maxDeliveries cap⟩
  | _ => none

end HubConfig

end Conductor
