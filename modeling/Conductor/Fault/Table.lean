import Conductor.Fault.Response

/-!
Response tables: prioritized responses, each with its phase.
-/

namespace Conductor

/-- A response and where it is in its life. -/
structure ResponseTable.Entry where
  response : Response
  phase : Phase
deriving DecidableEq

structure ResponseTable where
  name : String
  entries : List ResponseTable.Entry
deriving DecidableEq

namespace ResponseTable

/-- A table of idle responses. -/
def ofResponses (name : String) (responses : List Response) : ResponseTable :=
  ⟨name, responses.map fun r => ⟨r, .idle⟩⟩

def responses (t : ResponseTable) : List Response := t.entries.map Entry.response

def response? (t : ResponseTable) (entry : Nat) : Option Response :=
  t.entries[entry]?.map Entry.response

def phase? (t : ResponseTable) (entry : Nat) : Option Phase := t.entries[entry]?.map Entry.phase

/-- Whether a response is meant for a fault and open to it. -/
def eligible (f : Fault) (inReach : Reach → Bool) (r : Response) : Bool :=
  r.pattern.accepts f && inReach r.reach

/-- The better of the best response so far and a later one, which has to be more urgent. -/
def better (best : Option (Nat × Response)) (entry : Nat) (r : Response) :
    Option (Nat × Response) :=
  match best with
  | some (b, response) =>
    if response.priority ≥ r.priority then some (b, response) else some (entry, r)
  | none => some (entry, r)

def selectFrom (f : Fault) (inReach : Reach → Bool) :
    List Response → Nat → Option (Nat × Response) → Option (Nat × Response)
  | [], _, best => best
  | r :: rest, entry, best =>
    selectFrom f inReach rest (entry + 1)
      (if eligible f inReach r then better best entry r else best)

/-- The eligible response of the highest priority, the earliest of those, with its position. -/
def select (t : ResponseTable) (f : Fault) (inReach : Reach → Bool) : Option (Nat × Response) :=
  selectFrom f inReach t.responses 0 none

/-- Moves an entry on in its life; refused where the phase may not follow. -/
def advance? (t : ResponseTable) (entry : Nat) (next : Phase) : Option ResponseTable :=
  match t.entries[entry]? with
  | some e =>
    if e.phase.mayBecome next then
      some { t with entries := t.entries.set entry { e with phase := next } }
    else none
  | none => none

end ResponseTable

end Conductor
