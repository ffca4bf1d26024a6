import Conductor.Guard
import Conductor.Log
import Conductor.Truth

/-!
Deciding guards against the log. An event that was seen is true, one that can no longer happen
because its task has ended is false, and everything else is pending.

`Guard.denote` is the meaning of a guard: each leaf by itself, conjunction and disjunction over
all members. `Guard.evaluate` computes it from left to right, stops where the outcome is settled,
and keeps decided leaves in a memo.
-/

namespace Conductor

/-- What a guard is decided against. -/
structure View where
  log : Log
  root : TaskId
  /-- The task that `current` stands for. -/
  current : Option TaskId
  /-- Where the window of observed events opens. -/
  since : Nat
  /-- Values of the variables that are bound. -/
  vars : Dict String Value

namespace View

/-- The task that a reference stands for. -/
def task? (v : View) : TaskRef → Option TaskId
  | .current => v.current
  | .root => some v.root
  | .held name => ((v.vars.get? name).bind Value.task?).map Handle.id

end View

/-- Decides a leaf from the log and the variables. -/
def Leaf.decide (v : View) : Leaf → Truth
  | .emitted ref event =>
    match v.task? ref with
    | some task =>
      if v.log.occurred task event v.since then .yes
      else if v.log.finished task v.since then .no
      else .pending
    | none => .pending
  | .equals name value =>
    match v.vars.get? name with
    | some held => .ofBool (held == value)
    | none => .pending

namespace Guard

mutual

/-- The meaning of a guard in three-valued logic. -/
def denote (v : View) : Guard → Truth
  | always => .yes
  | leaf l => l.decide v
  | all guards => conjunction v guards
  | any guards => disjunction v guards
  | not guard => (denote v guard).not

def conjunction (v : View) : List Guard → Truth
  | [] => .yes
  | g :: rest => (denote v g).and (conjunction v rest)

def disjunction (v : View) : List Guard → Truth
  | [] => .no
  | g :: rest => (denote v g).or (disjunction v rest)

end

/-- The events that could change a guard, as far as their tasks are known. -/
def interests (v : View) (g : Guard) : List (TaskId × EventName) :=
  g.leaves.filterMap fun
    | .emitted ref event => (v.task? ref).map (·, event)
    | .equals _ _ => none

end Guard

/-- Leaves that were decided during one activation. -/
structure Memo where
  decided : List (Leaf × Bool)
deriving DecidableEq, Inhabited

namespace Memo

def empty : Memo := ⟨[]⟩

def lookup (m : Memo) (l : Leaf) : Option Bool :=
  (m.decided.find? fun p => p.1 == l).map Prod.snd

def size (m : Memo) : Nat := m.decided.length

/-- Keeps a decided leaf, unless it reads a variable, which may be bound anew. -/
def learn (m : Memo) (l : Leaf) (t : Truth) : Memo :=
  if t.isDecided && l.varName?.isNone then ⟨(l, t.isTrue) :: m.decided⟩ else m

end Memo

/-- Decides a leaf, from the memo if it is there. -/
def Leaf.evaluate (v : View) (l : Leaf) (m : Memo) : Truth × Memo :=
  match m.lookup l with
  | some b => (.ofBool b, m)
  | none => (l.decide v, m.learn l (l.decide v))

namespace Guard

mutual

/-- Decides a guard with the help of a memo. -/
def evaluate (v : View) : Guard → Memo → Truth × Memo
  | always, m => (.yes, m)
  | leaf l, m => l.evaluate v m
  | all guards, m => evaluateAll v guards .yes m
  | any guards, m => evaluateAny v guards .no m
  | not guard, m =>
    let (t, m) := evaluate v guard m
    (t.not, m)

def evaluateAll (v : View) : List Guard → Truth → Memo → Truth × Memo
  | [], sofar, m => (sofar, m)
  | g :: rest, sofar, m =>
    if sofar.isFalse then (sofar, m)
    else
      let (t, m) := evaluate v g m
      evaluateAll v rest (sofar.and t) m

def evaluateAny (v : View) : List Guard → Truth → Memo → Truth × Memo
  | [], sofar, m => (sofar, m)
  | g :: rest, sofar, m =>
    if sofar.isTrue then (sofar, m)
    else
      let (t, m) := evaluate v g m
      evaluateAny v rest (sofar.or t) m

end

end Guard

end Conductor
