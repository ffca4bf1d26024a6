import Conductor.Proofs.Scopes.Bindings

/-!
Reading and writing in place. Here the scopes are one state that is changed step by step, and what was
changed stays so even if the access fails in the end. Reading and writing come to the same: a scope
is replaced once nothing can fail any more, so a failed access leaves the scopes as they were.
-/

namespace Conductor

namespace Scopes

/-- An access to a state of scopes that may fail on the way. -/
abbrev InPlace (α : Type) := ExceptT Error (StateM Scopes) α

namespace InPlace

/-- What an access reports, and the scopes that it leaves. -/
def outcome {α : Type} (m : InPlace α) (s : Scopes) : Except Error α × Scopes := m.run.run s

/-- The outcome of an access that leaves the scopes alone if it fails. -/
def ofResult {α : Type} (s : Scopes) : Except Error (α × Scopes) → Except Error α × Scopes
  | .ok (a, s') => (.ok a, s')
  | .error e => (.error e, s)

def require {α : Type} (name : String) : Option α → InPlace α
  | some a => pure a
  | none => throw (.unboundVariable name)

/-- Fails where a value is not of the declared kind. -/
def check (d : Declaration) (value : Value) : InPlace Unit :=
  match d.checkKind value with
  | .ok () => pure ()
  | .error e => throw e

def replace (position : Nat) (scope : Scope) : InPlace Unit :=
  modify fun s => ⟨s.levels.set position scope⟩

/-- Reads a variable, resolving it on first access. -/
def get (argument? : String → Option Value) (name : String) : InPlace Value := do
  let s ← getThe Scopes
  let position ← require name (position? s.levels name)
  let scope ← require name s.levels[position]?
  if let some value := scope.values.get? name then
    return value
  let d ← require name (scope.declaration? name)
  let value ← require name (d.rule.supply argument? s.output?)
  check d value
  if d.rule.isLasting then
    replace position (scope.keep name value)
  return value

/-- Writes a variable into the innermost scope that knows it, or else into the session's own. -/
def set (name : String) (value : Value) : InPlace Unit := do
  let s ← getThe Scopes
  let position := target s.levels name
  if let some scope := s.levels[position]? then
    if let some d := scope.declaration? name then
      check d value
    replace position (scope.put name value)

section Outcome

variable {α β : Type}

theorem outcome_pure (a : α) (s : Scopes) : (pure a : InPlace α).outcome s = (.ok a, s) := rfl

theorem outcome_bind (m : InPlace α) (k : α → InPlace β) (s : Scopes) :
    (m >>= k).outcome s = match m.outcome s with
      | (.ok a, s') => (k a).outcome s'
      | (.error e, s') => (.error e, s') := by
  unfold outcome
  rw [ExceptT.run_bind, StateT.run_bind]
  rcases StateT.run m.run s with ⟨e | a, s'⟩ <;> rfl

theorem outcome_getThe (s : Scopes) : (getThe Scopes : InPlace Scopes).outcome s = (.ok s, s) := rfl

theorem outcome_require_some (name : String) (a : α) (s : Scopes) :
    (require name (some a)).outcome s = (.ok a, s) := rfl

theorem outcome_check (d : Declaration) (value : Value) (s : Scopes) :
    (check d value).outcome s = (d.checkKind value, s) := by
  unfold check
  cases d.checkKind value <;> rfl

end Outcome

theorem outcome_get (argument? : String → Option Value) (name : String) (s : Scopes) :
    (get argument? name).outcome s = ofResult s (s.get argument? name) := by
  rw [Scopes.get, readLevels_eq]
  -- the cases are the places where the access may end; only the last one has changed anything
  simp only [get, outcome_bind, outcome_getThe]
  cases position? s.levels name with
  | none => rfl
  | some i =>
    simp only [outcome_require_some, Option.bind_some]
    cases hs : s.levels[i]? with
    | none => rfl
    | some scope =>
      simp only [outcome_require_some, Scope.read_eq, Option.map_some]
      cases scope.values.get? name with
      | some value =>
        simp only [outcome_pure, Except.map, List.set_of_getElem? hs, ofResult]
      | none =>
        simp only [outcome_bind]
        cases scope.declaration? name with
        | none => rfl
        | some d =>
          simp only [outcome_require_some]
          cases d.rule.supply argument? s.output? with
          | none => rfl
          | some value =>
            simp only [outcome_require_some, outcome_check]
            cases d.checkKind value with
            | error e => rfl
            | ok _ =>
              cases d.rule.isLasting with
              | true => rfl
              | false => simp [outcome_pure, Except.map, List.set_of_getElem? hs, ofResult]

theorem outcome_set (name : String) (value : Value) (s : Scopes) :
    (set name value).outcome s = ofResult s ((s.set name value).map fun s' => ((), s')) := by
  rw [Scopes.set, writeLevels_eq]
  simp only [set, outcome_bind, outcome_getThe]
  cases s.levels[target s.levels name]? with
  | none => rfl
  | some scope =>
    simp only [Scope.write]
    cases scope.declaration? name with
    | none => rfl
    | some d =>
      simp only [outcome_bind, outcome_check]
      cases d.checkKind value <;> rfl

end InPlace

end Scopes

end Conductor
