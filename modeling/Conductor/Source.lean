import Conductor.Action

/-!
Sources: how a step obtains its task.
-/

namespace Conductor

/-- What an argument is bound to: a value, or whatever a variable holds when the task is made. -/
inductive Argument where
  | value (v : Value)
  | read (name : String)
deriving DecidableEq

inductive Source where
  | action (name : String) (arguments : Dict String Argument)
  | builder (name : String) (arguments : Dict String Argument)
  | held (name : String)
  | plan (name : String) (description : Description)
deriving DecidableEq

namespace Source

/-- Binds an argument, which means nothing where a task is held or described. -/
def withArgument (source : Source) (name : String) (argument : Argument) : Source :=
  match source with
  | action a arguments => action a (arguments.insert name argument)
  | builder b arguments => builder b (arguments.insert name argument)
  | other => other

def label : Source → String
  | action name _ => s!"action:{name}"
  | builder name _ => s!"builder:{name}"
  | held name => s!"var:{name}"
  | plan name _ => s!"plan:{name}"

end Source

end Conductor
