import Conductor.Task

/-!
Values held by variables, task arguments and event payloads, with their kinds, their display
text and a decidable equality.
-/

namespace Conductor

inductive Value where
  | null
  | bool (b : Bool)
  | int (n : Int64)
  | text (s : String)
  | task (handle : Handle)
  | list (items : List Value)
deriving Inhabited

/-- Declared kind of a variable or an argument. -/
inductive ValueKind where
  | null
  | bool
  | int
  | text
  | task
  | list
deriving DecidableEq

def ValueKind.display : ValueKind → String
  | null => "null"
  | bool => "bool"
  | int => "int"
  | text => "text"
  | task => "task"
  | list => "list"

instance : Spelled ValueKind where
  all := [.null, .bool, .int, .text, .task, .list]
  name := ValueKind.display

namespace Value

def kind : Value → ValueKind
  | null => .null
  | bool _ => .bool
  | int _ => .int
  | text _ => .text
  | task _ => .task
  | list _ => .list

/-- The handle in a value that holds a task. -/
def task? : Value → Option Handle
  | task handle => some handle
  | _ => none

def int? : Value → Option Int64
  | int n => some n
  | _ => none

def text? : Value → Option String
  | text s => some s
  | _ => none

mutual

/-- Text stands in quotes without escapes, a task shows its identifier. -/
def display : Value → String
  | null => "null"
  | bool b => if b then "true" else "false"
  | int n => toString n.toInt
  | text s => "\"" ++ s ++ "\""
  | task handle => "task(" ++ handle.id.text ++ ")"
  | list items => "[" ++ ", ".intercalate (displayAll items) ++ "]"

def displayAll : List Value → List String
  | [] => []
  | v :: rest => display v :: displayAll rest

end

mutual

/-- Whether two values are equal. -/
def same : Value → Value → Bool
  | null, null => true
  | bool a, bool b => a == b
  | int a, int b => a == b
  | text a, text b => a == b
  | task a, task b => a == b
  | list xs, list ys => sameAll xs ys
  | _, _ => false

def sameAll : List Value → List Value → Bool
  | [], [] => true
  | x :: xs, y :: ys => same x y && sameAll xs ys
  | _, _ => false

end

mutual

theorem same_refl : ∀ v : Value, same v v = true
  | null => by simp [same]
  | bool _ => by simp [same]
  | int _ => by simp [same]
  | text _ => by simp [same]
  | task _ => by simp [same]
  | list items => by simp [same, sameAll_refl items]

theorem sameAll_refl : ∀ vs : List Value, sameAll vs vs = true
  | [] => by simp [sameAll]
  | v :: rest => by simp [sameAll, same_refl v, sameAll_refl rest]

end

mutual

theorem eq_of_same : ∀ {a b : Value}, same a b = true → a = b
  | null, b, h => by cases b <;> simp_all [same]
  | bool _, b, h => by cases b <;> simp_all [same]
  | int _, b, h => by cases b <;> simp_all [same]
  | text _, b, h => by cases b <;> simp_all [same]
  | task _, b, h => by cases b <;> simp_all [same]
  | list xs, b, h => by
    cases b <;> simp only [same, Bool.false_eq_true] at h
    rw [eq_of_sameAll h]

theorem eq_of_sameAll : ∀ {xs ys : List Value}, sameAll xs ys = true → xs = ys
  | [], ys, h => by cases ys <;> simp_all [sameAll]
  | x :: xs, ys, h => by
    cases ys <;> simp only [sameAll, Bool.false_eq_true, Bool.and_eq_true] at h
    rw [eq_of_same h.1, eq_of_sameAll h.2]

end

instance : DecidableEq Value := fun a b =>
  if h : same a b = true then isTrue (eq_of_same h)
  else isFalse fun e => h (e ▸ same_refl a)

end Value

end Conductor
