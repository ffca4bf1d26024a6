import Conductor.Json

/-!
Three-valued truth. A condition over events that may still happen is pending until it is decided;
conjunction and disjunction are Kleene's, so a decided operand can decide the whole.
-/

namespace Conductor

inductive Truth where
  | yes
  | no
  | pending
deriving DecidableEq

namespace Truth

instance : Spelled Truth where
  all := [yes, no, pending]
  name
    | yes => "True"
    | no => "False"
    | pending => "Pending"

def ofBool (b : Bool) : Truth := if b then yes else no

def isTrue : Truth → Bool
  | yes => true
  | _ => false

def isFalse : Truth → Bool
  | no => true
  | _ => false

def isDecided : Truth → Bool
  | pending => false
  | _ => true

def and : Truth → Truth → Truth
  | no, _ => no
  | _, no => no
  | yes, yes => yes
  | _, _ => pending

def or : Truth → Truth → Truth
  | yes, _ => yes
  | _, yes => yes
  | no, no => no
  | _, _ => pending

def not : Truth → Truth
  | yes => no
  | no => yes
  | pending => pending

end Truth

end Conductor
