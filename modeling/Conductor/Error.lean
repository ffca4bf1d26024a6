import Conductor.Action

/-!
Everything that can go wrong, by its cause, and the words for each cause.
-/

namespace Conductor

/-- What a plan refuses to do. -/
inductive ProviderError where
  | unknownTask (task : String)
  | unknownModel (model : String)
  | rejected (reason : String)
  | alreadyAttached (task role : String)
  | notAttached (task role : String)
  /-- The request concerns a task that has no display text. -/
  | unshowable (task : TaskId)
deriving DecidableEq

def ProviderError.message : ProviderError → String
  | unknownTask task => s!"Unknown task: {task}"
  | unknownModel model => s!"Unknown task model: {model}"
  | rejected reason => s!"Request rejected: {reason}"
  | alreadyAttached task role => s!"Task {task} already attached under role '{role}'"
  | notAttached task role => s!"Task {task} not attached under role '{role}'"
  | unshowable task => "Task without display text: " ++ task.text

/-- Why a source yields no task. -/
inductive Unresolvable where
  | binding (error : BindError)
  | noAction (name : String)
  | noBuilder (name : String)
  | action (name : String) (error : ProviderError)
  | builder (name : String) (error : ProviderError)
  | plan (name : String) (error : ProviderError)
  | other (reason : String)
deriving DecidableEq

def Unresolvable.message : Unresolvable → String
  | binding error => error.message
  | noAction name => s!"no action named '{name}'"
  | noBuilder name => s!"no builder named '{name}'"
  | action name error => s!"action '{name}': " ++ error.message
  | builder name error => s!"builder '{name}': " ++ error.message
  | plan name error => s!"plan '{name}': " ++ error.message
  | other reason => reason

/-- What makes a model or a registry invalid. -/
inductive InvalidModel where
  | scriptLabelTwice (script label : String)
  | scriptVariableTwice (script name : String)
  | machineVariableTwice (machine name : String)
  | terminalWithTransitions (state : String)
  | actionTwice (name : String)
  | other (reason : String)
deriving DecidableEq

def InvalidModel.message : InvalidModel → String
  | scriptLabelTwice script label => s!"Script '{script}' has duplicate instruction label '{label}'"
  | scriptVariableTwice script name => s!"Script '{script}' declares variable '{name}' twice"
  | machineVariableTwice machine name =>
    s!"State machine '{machine}' declares variable '{name}' twice"
  | terminalWithTransitions state => s!"Terminal state '{state}' declares outgoing transitions"
  | actionTwice name => s!"Action '{name}' registered twice"
  | other reason => reason

/-- What can go wrong while models are built or run. -/
inductive Error where
  | unresolvableSource (cause : Unresolvable)
  | unboundVariable (name : String)
  | notATask (name : String)
  | instructionFailed (pc : Nat)
  | noApplicableTransition (state : String)
  | alreadyRunning
  | emptyScript
  | escalationExhausted
  | notRunning
  | unknownContext (id : String)
  | noInitialState
  | duplicateState (state : String)
  | unknownState (state : String)
  | invalidModel (cause : InvalidModel)
  | typeMismatch (name expected actual : String)
  | provider (error : ProviderError)
deriving DecidableEq

namespace Error

def message : Error → String
  | unresolvableSource cause => "Task source cannot be resolved: " ++ cause.message
  | unboundVariable name => s!"Variable not bound in the current activation: {name}"
  | notATask name => s!"Variable does not hold a task: {name}"
  | instructionFailed pc => s!"Instruction {pc} failed"
  | noApplicableTransition state => s!"No applicable transition out of state '{state}'"
  | alreadyRunning => "Model is already running"
  | emptyScript => "Script has no instructions"
  | escalationExhausted => "Fault escalation exhausted every enclosing fault table"
  | notRunning => "Model is not running"
  | unknownContext id => s!"Unknown coordination context: {id}"
  | noInitialState => "No initial state defined"
  | duplicateState state => s!"Duplicate state: {state}"
  | unknownState state => s!"Unknown state: {state}"
  | invalidModel cause => "Invalid model: " ++ cause.message
  | typeMismatch name expected actual => s!"Variable '{name}' expects {expected}, got {actual}"
  | provider error => "Task provider error: " ++ error.message

/-- Errors that arise while the task of a step is being obtained. -/
def isResolution : Error → Bool
  | unresolvableSource _ | unboundVariable _ | notATask _ | typeMismatch .. => true
  | _ => false

end Error

end Conductor
