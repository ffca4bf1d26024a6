import Conductor.Event

/-!
Guards: conditions over observed events and variables that let a step advance. A guard is an
immutable tree; its leaves are the units of memoization and of interest in events.
-/

namespace Conductor

/-- Which task a leaf is about: the task of the active step, the root, or the task in a variable. -/
inductive TaskRef where
  | current
  | root
  | held (name : String)
deriving DecidableEq

def TaskRef.display : TaskRef → String
  | current => "current"
  | root => "root"
  | held name => "$" ++ name

inductive Leaf where
  | emitted (task : TaskRef) (event : EventName)
  | equals (name : String) (value : Value)
deriving DecidableEq

namespace Leaf

def display : Leaf → String
  | emitted task event => task.display ++ "." ++ event.text
  | equals name value => "$" ++ name ++ " == " ++ value.display

/-- The variable a leaf reads. -/
def varName? : Leaf → Option String
  | emitted (.held name) _ => some name
  | emitted _ _ => none
  | equals name _ => some name

end Leaf

inductive Guard where
  | always
  | leaf (leaf : Leaf)
  | all (guards : List Guard)
  | any (guards : List Guard)
  | not (guard : Guard)
deriving Inhabited

namespace Guard

/-- The current task emitted an event. -/
def on (event : EventName) : Guard := leaf (.emitted .current event)

/-- Both guards; a conjunction takes the other guard as its last member. -/
def and : Guard → Guard → Guard
  | all guards, other => all (guards ++ [other])
  | guard, other => all [guard, other]

/-- Either guard; a disjunction takes the other guard as its last member. -/
def or : Guard → Guard → Guard
  | any guards, other => any (guards ++ [other])
  | guard, other => any [guard, other]

mutual

/-- Every leaf from left to right. -/
def allLeaves : Guard → List Leaf
  | always => []
  | leaf l => [l]
  | all guards => allLeavesList guards
  | any guards => allLeavesList guards
  | not guard => allLeaves guard

def allLeavesList : List Guard → List Leaf
  | [] => []
  | g :: rest => allLeaves g ++ allLeavesList rest

end

/-- The distinct leaves in the order of their first occurrence. -/
def leaves (g : Guard) : List Leaf := g.allLeaves.eraseDups

/-- The distinct variables that the leaves read, in the order of the leaves. -/
def vars (g : Guard) : List String := (g.leaves.filterMap Leaf.varName?).eraseDups

mutual

def display : Guard → String
  | always => "always"
  | leaf l => l.display
  | all guards => "(" ++ " && ".intercalate (displayAll guards) ++ ")"
  | any guards => "(" ++ " || ".intercalate (displayAll guards) ++ ")"
  | not guard => "!" ++ display guard

def displayAll : List Guard → List String
  | [] => []
  | g :: rest => display g :: displayAll rest

end

mutual

/-- Whether two guards are the same tree. -/
def same : Guard → Guard → Bool
  | always, always => true
  | leaf a, leaf b => a == b
  | all gs, all hs => sameAll gs hs
  | any gs, any hs => sameAll gs hs
  | not g, not h => same g h
  | _, _ => false

def sameAll : List Guard → List Guard → Bool
  | [], [] => true
  | g :: gs, h :: hs => same g h && sameAll gs hs
  | _, _ => false

end

mutual

theorem same_refl : ∀ g : Guard, same g g = true
  | always => by simp [same]
  | leaf _ => by simp [same]
  | all guards => by simp [same, sameAll_refl guards]
  | any guards => by simp [same, sameAll_refl guards]
  | not guard => by simp [same, same_refl guard]

theorem sameAll_refl : ∀ gs : List Guard, sameAll gs gs = true
  | [] => by simp [sameAll]
  | g :: rest => by simp [sameAll, same_refl g, sameAll_refl rest]

end

mutual

theorem eq_of_same : ∀ {a b : Guard}, same a b = true → a = b
  | always, b, h => by cases b <;> simp_all [same]
  | leaf _, b, h => by cases b <;> simp_all [same]
  | all gs, b, h => by
    cases b <;> simp only [same, Bool.false_eq_true] at h
    rw [eq_of_sameAll h]
  | any gs, b, h => by
    cases b <;> simp only [same, Bool.false_eq_true] at h
    rw [eq_of_sameAll h]
  | not g, b, h => by
    cases b <;> simp only [same, Bool.false_eq_true] at h
    rw [eq_of_same h]

theorem eq_of_sameAll : ∀ {gs hs : List Guard}, sameAll gs hs = true → gs = hs
  | [], hs, h => by cases hs <;> simp_all [sameAll]
  | g :: gs, hs, h => by
    cases hs <;> simp only [sameAll, Bool.false_eq_true, Bool.and_eq_true] at h
    rw [eq_of_same h.1, eq_of_sameAll h.2]

end

instance : DecidableEq Guard := fun a b =>
  if h : same a b = true then isTrue (eq_of_same h)
  else isFalse fun e => h (e ▸ same_refl a)

end Guard

end Conductor
