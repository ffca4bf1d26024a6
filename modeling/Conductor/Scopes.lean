import Conductor.Error

/-!
Variable scopes. The outermost scope belongs to the session and takes values under names that
nobody declares; each running model has a scope of its own inside it. A name is looked up from
the innermost scope outwards, and the first scope that knows it decides.
-/

namespace Conductor

/-- The variables of one model. -/
structure Scope where
  owner : String
  declarations : List Declaration
  /-- Values that were resolved or written. -/
  values : Dict String Value
  /-- Names that were written. -/
  written : KeySet String
  /-- What steps put out when they were left. -/
  outputs : Dict String Value
deriving DecidableEq

namespace Declaration

/-- Whether a value has the declared kind. -/
def checkKind (d : Declaration) (value : Value) : Except Error Unit :=
  match d.kind with
  | some kind =>
    if value.kind = kind then .ok ()
    else .error (.typeMismatch d.name kind.display value.kind.display)
  | none => .ok ()

end Declaration

namespace Scope

def new (owner : String) (declarations : List Declaration) : Scope :=
  ⟨owner, declarations, .empty, .empty, .empty⟩

def declaration? (s : Scope) (name : String) : Option Declaration :=
  s.declarations.find? fun d => d.name == name

/-- A scope knows the names that it declares or holds a value for. -/
def knows (s : Scope) (name : String) : Bool :=
  (s.declaration? name).isSome || s.values.contains name

/-- Forgets everything but what was written. -/
def reset (s : Scope) : Scope :=
  { s with values := s.values.filter fun name _ => s.written.contains name, outputs := .empty }

/-- Keeps a resolved value. -/
def keep (s : Scope) (name : String) (value : Value) : Scope :=
  { s with values := s.values.insert name value }

/-- Reads a variable that the scope knows. Constants and arguments of the root are resolved once;
the output of a step is looked up on every read. -/
def read (argument? output? : String → Option Value) (s : Scope) (name : String) :
    Except Error (Value × Scope) :=
  match s.values.get? name, s.declaration? name with
  | some value, _ => .ok (value, s)
  | none, none => .error (.unboundVariable name)
  | none, some d =>
    match d.rule with
    | .constant value => (d.checkKind value).map fun _ => (value, s.keep name value)
    | .argument argument =>
      match argument? argument with
      | some value => (d.checkKind value).map fun _ => (value, s.keep name value)
      | none => .error (.unboundVariable name)
    | .stepOutput label =>
      match output? label with
      | some value => (d.checkKind value).map fun _ => (value, s)
      | none => .error (.unboundVariable name)
    | .assigned => .error (.unboundVariable name)

/-- Holds a value as written. -/
def put (s : Scope) (name : String) (value : Value) : Scope :=
  { s with values := s.values.insert name value, written := s.written.add name }

/-- Writes a variable, of the declared kind if the scope declares it. -/
def write (s : Scope) (name : String) (value : Value) : Except Error Scope :=
  match s.declaration? name with
  | some d => (d.checkKind value).map fun _ => s.put name value
  | none => .ok (s.put name value)

end Scope

/-- The scopes of a session, the innermost first. -/
structure Scopes where
  levels : List Scope
deriving DecidableEq

namespace Scopes

/-- The scope of the session alone. -/
def base : Scopes := ⟨[.new "context" []]⟩

/-- How many scopes there are. -/
def depth (s : Scopes) : Nat := s.levels.length

/-- Opens a scope. Its depth is the depth before. -/
def push (s : Scopes) (owner : String) (declarations : List Declaration) : Scopes :=
  ⟨.new owner declarations :: s.levels⟩

/-- Closes the innermost scope; the session's own scope stays. -/
def pop (s : Scopes) : Option Scope × Scopes :=
  match s.levels with
  | inner :: outer :: rest => (some inner, ⟨outer :: rest⟩)
  | _ => (none, s)

/-- Changes the scope at a depth, counted from the outermost, if there is one. -/
def modifyAt (s : Scopes) (depth : Nat) (f : Scope → Scope) : Scopes :=
  if depth < s.depth then ⟨s.levels.modify (s.depth - 1 - depth) f⟩ else s

def reset (s : Scopes) (depth : Nat) : Scopes := s.modifyAt depth Scope.reset

/-- Records what a step put out, in the scope at a depth. -/
def recordOutput (s : Scopes) (depth : Nat) (label : String) (value : Value) : Scopes :=
  s.modifyAt depth fun scope => { scope with outputs := scope.outputs.insert label value }

/-- What a step put out, by the innermost scope that has it. -/
def output? (s : Scopes) (label : String) : Option Value :=
  s.levels.findSome? fun scope => scope.outputs.get? label

/-- The value held for a name, without resolving it. -/
def peek? (s : Scopes) (name : String) : Option Value :=
  s.levels.findSome? fun scope => scope.values.get? name

/-- Every value held, where inner scopes hide outer ones. -/
def snapshot (s : Scopes) : Dict String Value :=
  s.levels.foldr (fun scope held => scope.values.entries.foldl (fun d e => d.insert e.1 e.2) held)
    .empty

def readLevels (argument? output? : String → Option Value) (name : String) :
    List Scope → Except Error (Value × List Scope)
  | [] => .error (.unboundVariable name)
  | scope :: outer =>
    if scope.knows name then
      (scope.read argument? output? name).map fun (value, scope) => (value, scope :: outer)
    else
      (readLevels argument? output? name outer).map fun (value, outer) => (value, scope :: outer)

/-- Reads a variable from the innermost scope that knows it; `argument?` has the arguments of the
root. Nothing changes where the read fails. -/
def get (s : Scopes) (argument? : String → Option Value) (name : String) :
    Except Error (Value × Scopes) :=
  (readLevels argument? s.output? name s.levels).map fun (value, levels) => (value, ⟨levels⟩)

def writeLevels (name : String) (value : Value) : List Scope → Except Error (List Scope)
  | [] => .ok []
  | [scope] => (scope.write name value).map fun scope => [scope]
  | scope :: outer =>
    if scope.knows name then (scope.write name value).map fun scope => scope :: outer
    else (writeLevels name value outer).map fun outer => scope :: outer

/-- Writes a variable into the innermost scope that knows it, or else into the session's own. -/
def set (s : Scopes) (name : String) (value : Value) : Except Error Scopes :=
  (writeLevels name value s.levels).map fun levels => ⟨levels⟩

end Scopes

end Conductor
