import Conductor.Engine
import Conductor.Fault.Table

/-!
Deciding who handles a fault. Tables are kept from the innermost outwards, and the first table
with an eligible response provides it. A fault that a response of higher priority is meant for
displaces the active handler; any other one waits behind it.
-/

namespace Conductor

/-- A response with its table and its position there. -/
structure Target where
  table : Nat
  entry : Nat
  response : Response
deriving DecidableEq

/-- What to do with a fault. -/
inductive Decision where
  | activate (target : Target)
  | preempt (target : Target)
  | queue
  | unhandled
deriving DecidableEq

/-- The handler that runs in place of the normal model. -/
structure ActiveHandler where
  table : Nat
  entry : Nat
  priority : Int
  fault : Fault
  engine : Engine
deriving DecidableEq

structure Dispatch where
  /-- Response tables, the innermost first. -/
  tables : List ResponseTable
  active : Option ActiveHandler
  /-- Faults that wait behind the active handler, the oldest first. -/
  pending : List Fault
  limit : Nat
  /-- How many moves of entries were refused so far. -/
  refused : Nat
deriving DecidableEq

namespace Dispatch

def new (limit : Nat) : Dispatch := ⟨[], none, [], limit, 0⟩

/-- Changes how many faults may wait; the oldest of those beyond it are dropped. -/
def setLimit (d : Dispatch) (limit : Nat) : Dispatch :=
  { d with limit, pending := d.pending.drop (d.pending.length - limit) }

/-- Adds a table around the others. -/
def addTable (d : Dispatch) (t : ResponseTable) : Dispatch := { d with tables := d.tables ++ [t] }

def response? (d : Dispatch) (table entry : Nat) : Option Response :=
  d.tables[table]?.bind fun t => t.response? entry

def phase? (d : Dispatch) (table entry : Nat) : Option Phase :=
  d.tables[table]?.bind fun t => t.phase? entry

/-- Moves an entry on in its life; refused where the phase may not follow. -/
def advance? (d : Dispatch) (table entry : Nat) (next : Phase) : Option Dispatch :=
  (d.tables[table]?.bind fun t => t.advance? entry next).map fun t =>
    { d with tables := d.tables.set table t }

/-- Moves an entry on in its life, where that is allowed. A refusal counts as one and changes
nothing else. -/
def advance (d : Dispatch) (table entry : Nat) (next : Phase) : Dispatch :=
  (d.advance? table entry next).getD { d with refused := d.refused + 1 }

def selectIn (f : Fault) (inReach : Reach → Bool) : List ResponseTable → Nat → Option Target
  | [], _ => none
  | t :: rest, table =>
    match t.select f inReach with
    | some (entry, response) => some ⟨table, entry, response⟩
    | none => selectIn f inReach rest (table + 1)

/-- The response of the nearest table, from the given one outwards, that has an eligible one. -/
def selectFrom (d : Dispatch) (f : Fault) (first : Nat) (inReach : Reach → Bool) :
    Option Target :=
  selectIn f inReach (d.tables.drop first) first

def decide (d : Dispatch) (f : Fault) (inReach : Reach → Bool) : Decision :=
  match d.selectFrom f 0 inReach, d.active with
  | none, _ => .unhandled
  | some target, none => .activate target
  | some target, some active =>
    if target.response.priority > active.priority then .preempt target else .queue

/-- Where a fault goes when the handler from the given table fails. -/
def escalationTarget (d : Dispatch) (f : Fault) (failed : Nat) (inReach : Reach → Bool) :
    Option Target :=
  d.selectFrom f (failed + 1) inReach

def isHandling (d : Dispatch) : Bool := d.active.isSome

/-- Puts a fault behind the active handler. The oldest waiting fault is dropped when there is no
room, and the fault itself when none may wait. -/
def enqueue (d : Dispatch) (f : Fault) : Option Fault × Dispatch :=
  let (dropped, pending) :=
    if d.pending.length ≥ d.limit then (d.pending.head?, d.pending.tail) else (none, d.pending)
  if d.limit > 0 then (dropped, { d with pending := pending ++ [f] })
  else (some f, { d with pending })

/-- Takes the oldest waiting fault. -/
def nextPending (d : Dispatch) : Option Fault × Dispatch :=
  (d.pending.head?, { d with pending := d.pending.tail })

def clearPending (d : Dispatch) : Dispatch := { d with pending := [] }

end Dispatch

end Conductor
