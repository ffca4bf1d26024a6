import Conductor.Error
import Conductor.Source

/-!
Scripts: instructions that run one after the other. An instruction drives at most one task and
is left when its exit guard holds; an entry guard decides whether it runs at all.
-/

namespace Conductor

/-- What happens when an instruction is left. -/
inductive ExitAction where
  | assign (assignment : Assignment)
  | emit (event : EventName)
deriving DecidableEq

structure Instruction where
  label : String
  /-- The task to run; without one the instruction only waits. -/
  source : Option Source
  entryGuard : Option Guard
  exitGuard : Guard
  onExit : List ExitAction
deriving DecidableEq

namespace Instruction

/-- Runs a task until it succeeds. -/
def run (label : String) (source : Source) : Instruction :=
  ⟨label, some source, none, .on .success, []⟩

/-- Runs no task and waits for a guard. -/
def wait (label : String) (guard : Guard) : Instruction := ⟨label, none, none, guard, []⟩

/-- Emits an event on the root and is left at once. -/
def emit (label : String) (event : EventName) : Instruction :=
  ⟨label, none, none, .always, [.emit event]⟩

end Instruction

structure Script where
  name : String
  vars : List Declaration
  instructions : List Instruction
deriving DecidableEq

/-- The first name that occurs a second time. -/
def firstRepeated? (seen : List String) : List String → Option String
  | [] => none
  | name :: rest => if name ∈ seen then some name else firstRepeated? (name :: seen) rest

/-- A script whose labels and variables are distinct. -/
def Script.build (name : String) (vars : List Declaration)
    (instructions : List Instruction) : Except Error Script :=
  match firstRepeated? [] (instructions.map Instruction.label) with
  | some label => .error (.invalidModel (.scriptLabelTwice name label))
  | none =>
    match firstRepeated? [] (vars.map Declaration.name) with
    | some declared => .error (.invalidModel (.scriptVariableTwice name declared))
    | none => .ok ⟨name, vars, instructions⟩

end Conductor
