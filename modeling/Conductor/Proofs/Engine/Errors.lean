import Conductor.Engine
import Conductor.Proofs.Scopes

/-!
What engines fail of. Whatever goes wrong while a model runs, no engine reports that an escalation
is exhausted: only a session says so, when its response tables have nothing left for a fault. And
nothing that a model does ends in the report of a dead end, which comes of its guards alone. What a
step does to variables, tasks and events meets obstacles at most, which say nothing about the model.
-/

namespace Conductor

namespace Error

/-- What a model can fail of: anything but an exhausted escalation. -/
def isPlain : Error → Bool
  | escalationExhausted => false
  | _ => true

/-- A step cannot be left any more. -/
def isDeadEnd : Error → Bool
  | instructionFailed _ | noApplicableTransition _ => true
  | _ => false

/-- What can go wrong with something that a model does. -/
def isMishap (e : Error) : Bool := e.isPlain && !e.isDeadEnd

/-- What can get in the way of a step: a task that cannot be obtained, a variable that cannot be
read or written, or a provider that refuses. -/
def isObstacle (e : Error) : Bool :=
  e.isResolution || match e with
    | provider _ => true
    | _ => false

theorem isPlain_of_isMishap {e : Error} (h : e.isMishap = true) : e.isPlain = true :=
  (Bool.and_eq_true_iff.mp h).1

theorem isMishap_of_isObstacle {e : Error} (h : e.isObstacle = true) : e.isMishap = true := by
  cases e <;> first | rfl | cases h

end Error

/-- If this is an error, then a mishap. -/
def Except.Mishap {α : Type} : Except Error α → Prop
  | .error e => e.isMishap = true
  | .ok _ => True

/-- If this is an error, then an obstacle. -/
def Except.Obstacle {α : Type} : Except Error α → Prop
  | .error e => e.isObstacle = true
  | .ok _ => True

namespace Progress

/-- If this is a failure, then of a plain error. -/
def Plain : Progress → Prop
  | .failed e => e.isPlain = true
  | _ => True

/-- If this is a failure, then a mishap. -/
def Mishap : Progress → Prop
  | .failed e => e.isMishap = true
  | _ => True

theorem Mishap.plain {p : Progress} (h : p.Mishap) : p.Plain := by
  cases p with
  | failed e => exact Error.isPlain_of_isMishap h
  | waiting | advanced | finished => trivial

end Progress

theorem Except.Mishap.map {α β : Type} {x : Except Error α} (h : Mishap x) (f : α → β) :
    Mishap (x.map f) := by
  cases x with
  | error e => exact h
  | ok a => trivial

theorem Except.Mishap.error {α : Type} {x : Except Error α} (h : Mishap x) {e : Error}
    (he : x = .error e) : e.isMishap = true := by
  rw [he] at h
  exact h

theorem Except.Obstacle.map {α β : Type} {x : Except Error α} (h : Obstacle x) (f : α → β) :
    Obstacle (x.map f) := by
  cases x with
  | error e => exact h
  | ok a => trivial

theorem Except.Obstacle.error {α : Type} {x : Except Error α} (h : Obstacle x) {e : Error}
    (he : x = .error e) : e.isObstacle = true := by
  rw [he] at h
  exact h

theorem Except.Obstacle.mishap {α : Type} {x : Except Error α} (h : Obstacle x) : Mishap x := by
  cases x with
  | error e => exact Error.isMishap_of_isObstacle h
  | ok a => trivial

/-! ## Variables -/

theorem Declaration.checkKind_obstacle (d : Declaration) (value : Value) :
    Except.Obstacle (d.checkKind value) := by
  unfold checkKind
  split
  · split
    · trivial
    · trivial
  · trivial

theorem Scope.read_obstacle (argument? output? : String → Option Value) (s : Scope) (name : String) :
    Except.Obstacle (s.read argument? output? name) := by
  unfold read
  split
  · trivial
  · trivial
  · rename_i d _ _
    split
    · exact (d.checkKind_obstacle _).map _
    · split
      · exact (d.checkKind_obstacle _).map _
      · trivial
    · split
      · exact (d.checkKind_obstacle _).map _
      · trivial
    · trivial

theorem Scope.write_obstacle (s : Scope) (name : String) (value : Value) :
    Except.Obstacle (s.write name value) := by
  unfold write
  split
  · rename_i d _
    exact (d.checkKind_obstacle value).map _
  · trivial

namespace Scopes

theorem readLevels_obstacle (argument? output? : String → Option Value) (name : String)
    (levels : List Scope) : Except.Obstacle (readLevels argument? output? name levels) := by
  induction levels with
  | nil => trivial
  | cons scope outer ih =>
    simp only [readLevels]
    split
    · exact (scope.read_obstacle argument? output? name).map _
    · exact ih.map _

theorem get_obstacle (s : Scopes) (argument? : String → Option Value) (name : String) :
    Except.Obstacle (s.get argument? name) :=
  (readLevels_obstacle argument? s.output? name s.levels).map _

theorem writeLevels_obstacle (name : String) (value : Value) (levels : List Scope) :
    Except.Obstacle (writeLevels name value levels) := by
  induction levels with
  | nil => trivial
  | cons scope outer ih =>
    cases outer with
    | nil => exact (scope.write_obstacle name value).map _
    | cons next rest =>
      simp only [writeLevels]
      split
      · exact (scope.write_obstacle name value).map _
      · exact ih.map _

theorem set_obstacle (s : Scopes) (name : String) (value : Value) :
    Except.Obstacle (s.set name value) :=
  (writeLevels_obstacle name value s.levels).map _

end Scopes

/-! ## Tasks -/

namespace Slots

theorem bindArguments_obstacle (argument? : String → Option Value)
    (arguments : List (String × Argument)) (bound : Dict String Value) (scopes : Scopes) :
    Except.Obstacle (bindArguments argument? arguments bound scopes).1 := by
  induction arguments generalizing bound scopes with
  | nil => trivial
  | cons argument rest ih =>
    obtain ⟨name, argument⟩ := argument
    cases argument with
    | value v => exact ih (bound.insert name v) scopes
    | read variable_ =>
      simp only [bindArguments]
      split
      · exact ih _ _
      · rename_i he
        exact (scopes.get_obstacle argument? variable_).error he

theorem make_obstacle (p : Plan) (d : Description) (inWords : ProviderError → Unresolvable) :
    Except.Obstacle (make p d inWords).1 := by
  unfold make
  split
  · trivial
  · trivial

theorem produce_obstacle (catalog : Catalog) (root : TaskId) (source : Source) (scopes : Scopes)
    (p : Plan) : Except.Obstacle (produce catalog root source scopes p).1 := by
  have hbind := fun arguments => bindArguments_obstacle (p.argument? root) arguments .empty scopes
  unfold produce
  split
  · split
    · trivial
    split
    · rename_i he
      exact (hbind _).error (congrArg Prod.fst he)
    split
    · trivial
    · exact make_obstacle ..
  · split
    · trivial
    split
    · rename_i he
      exact (hbind _).error (congrArg Prod.fst he)
    split
    · trivial
    · trivial
  · split
    · rename_i he
      exact (scopes.get_obstacle (p.argument? root) _).error he
    · split
      · trivial
      · trivial
  · exact make_obstacle ..

theorem resolve_obstacle (s : Slots) (catalog : Catalog) (key : SlotKey) (source : Source)
    (scopes : Scopes) (p : Plan) :
    Except.Obstacle (s.resolve catalog key source scopes p).1 := by
  unfold resolve
  split
  · trivial
  split
  · rename_i he
    exact (produce_obstacle catalog s.root.id source scopes p).error (congrArg Prod.fst he)
  split
  · trivial
  · trivial

end Slots

namespace Stage

theorem resolve_obstacle (s : Stage) (key : SlotKey) (source : Source) :
    Except.Obstacle (s.resolve key source).1 := by
  unfold resolve
  split
  · rename_i he
    exact (s.slots.resolve_obstacle s.catalog key source s.scopes s.plan).error
      (congrArg Prod.fst he)
  · extract_lets
    split
    · split
      · trivial
      · trivial
    · trivial

/-! ## Effects -/

theorem read_obstacle (s : Stage) (name : String) : Except.Obstacle (s.read name) :=
  (s.scopes.get_obstacle (s.plan.argument? s.root) name).map _

theorem origin_obstacle (s : Stage) (o : Assignment.Origin) (focus : Focus) (task : Option Handle) :
    Except.Obstacle (s.origin o focus task) := by
  unfold origin
  split
  · trivial
  · trivial
  · trivial
  · exact (s.read_obstacle _).map _
  · trivial
  · exact s.read_obstacle _

theorem assign_obstacle (s : Stage) (a : Assignment) (focus : Focus) (task : Option Handle) :
    Except.Obstacle (s.assign a focus task).1 := by
  unfold assign
  split
  · rename_i he
    exact (s.origin_obstacle a.origin focus task).error he
  · rename_i value s' _
    split
    · rename_i he
      exact (s'.scopes.set_obstacle a.target value).error he
    · trivial

theorem emitOnRoot_obstacle (s : Stage) (event : EventName) (payload : Option Value) :
    Except.Obstacle (s.emitOnRoot event payload).1 := by
  unfold emitOnRoot
  split
  · trivial
  · trivial

end Stage

theorem Course.takeTask_obstacle (c : Course) (label : String) (source : Option Source)
    (s : Stage) : Except.Obstacle (c.takeTask label source s).1 := by
  unfold takeTask
  split
  · trivial
  · rename_i source
    exact (s.resolve_obstacle (c.key label) source).map _

/-! ## Scripts -/

namespace ScriptRun

theorem exitActions_obstacle (focus : Focus) (task : Option Handle) (actions : List ExitAction)
    (s : Stage) : Except.Obstacle (exitActions focus task actions s).1 := by
  induction actions generalizing s with
  | nil => trivial
  | cons action rest ih =>
    simp only [exitActions]
    split
    · exact ih _
    · rename_i he
      cases action with
      | assign a => exact (s.assign_obstacle a focus task).error he
      | emit event => exact (s.emitOnRoot_obstacle event none).error he

theorem exit_mishap (r : ScriptRun) (instruction : Instruction) (event : Option Event)
    (s : Stage) : Except.Mishap (r.exit instruction event s).1 := by
  unfold exit
  split
  · rfl
  · rename_i step _
    have hactions := (exitActions_obstacle (step.focus r.last) step.task instruction.onExit
      (r.recordOutput instruction.label step event s)).mishap
    extract_lets
    split
    · rename_i he
      exact hactions.error (congrArg Prod.fst he)
    · trivial

theorem enterFrom_mishap (rest : List Instruction) (r : ScriptRun) (s : Stage) :
    (enterFrom rest r s).1.Mishap := by
  induction rest generalizing r s with
  | nil => trivial
  | cons instruction rest ih =>
    simp only [enterFrom]
    split
    · exact ih _ _
    · rename_i s' _
      split
      · rename_i he
        have hobstacle := (Course.takeTask_obstacle _ instruction.label instruction.source s').error
          (congrArg Prod.fst he)
        exact Error.isMishap_of_isObstacle hobstacle
      · split
        · split
          · rename_i he
            exact (exit_mishap _ _ _ _).error (congrArg Prod.fst he)
          · exact ih _ _
        · trivial

theorem check_plain (r : ScriptRun) (event : Option Event) (s : Stage) :
    (r.check event s).1.Plain := by
  unfold check
  split
  · trivial
  · trivial
  · simp only
    split
    · split
      · rename_i he
        exact Error.isPlain_of_isMishap ((exit_mishap _ _ _ _).error (congrArg Prod.fst he))
      · exact (enterFrom_mishap ..).plain
    · rfl
    · trivial

theorem start_mishap {r r' : ScriptRun} {s s' : Stage} {p : Progress}
    (h : r.start s = .ok (p, r', s')) : p.Mishap := by
  unfold start at h
  split at h
  · cases h
  split at h
  · cases h
  · obtain rfl : _ = p := congrArg Prod.fst (Except.ok.inj h)
    exact enterFrom_mishap ..

theorem start_error_mishap (r : ScriptRun) (s : Stage) : Except.Mishap (r.start s) := by
  unfold start
  split
  · rfl
  split
  · rfl
  · trivial

theorem onEvent_plain (r : ScriptRun) (event : Event) (s : Stage) :
    (r.onEvent event s).1.Plain := by
  unfold onEvent
  split
  · trivial
  · exact check_plain ..

theorem resume_plain (r : ScriptRun) (s : Stage) : (r.resume s).1.Plain := by
  unfold resume
  split
  · trivial
  split
  · exact (enterFrom_mishap ..).plain
  · exact check_plain ..

end ScriptRun

/-! ## State machines -/

namespace MachineRun

theorem enter_mishap (r : MachineRun) (id : String) (s : Stage) : (r.enter id s).1.Mishap := by
  unfold enter
  split
  · rfl
  · rename_i state _
    simp only
    split
    · trivial
    split
    · rename_i he
      have hobstacle := (Course.takeTask_obstacle _ state.id state.source s).error
        (congrArg Prod.fst he)
      exact Error.isMishap_of_isObstacle hobstacle
    · trivial

theorem applyUpdates_obstacle (focus : Focus) (task : Option Handle) (updates : List Assignment)
    (s : Stage) : Except.Obstacle (applyUpdates focus task updates s).1 := by
  induction updates generalizing s with
  | nil => trivial
  | cons a rest ih =>
    simp only [applyUpdates]
    split
    · exact ih _
    · rename_i he
      exact (s.assign_obstacle a focus task).error (congrArg Prod.fst he)

theorem takeTransition_mishap (r : MachineRun) (state : State) (position : Nat) (t : Transition)
    (step : ActiveStep) (s : Stage) : (r.takeTransition state position t step s).1.Mishap := by
  have hupdates := (applyUpdates_obstacle (step.focus r.last) step.task t.updates s).mishap
  simp only [takeTransition]
  split
  · rename_i he
    exact hupdates.error (congrArg Prod.fst he)
  · exact enter_mishap ..

theorem check_plain (r : MachineRun) (state : State) (s : Stage) : (r.check state s).1.Plain := by
  unfold check
  split
  · trivial
  extract_lets ended
  split
  · split
    · trivial
    split
    · trivial
    split
    · rfl
    · trivial
  split
  · exact (takeTransition_mishap ..).plain
  · simp only
    generalize (if state.transitions.isEmpty = true then ended else _) = stuck
    split
    · rfl
    · trivial

theorem start_mishap {r r' : MachineRun} {s s' : Stage} {p : Progress}
    (h : r.start s = .ok (p, r', s')) : p.Mishap := by
  unfold start at h
  split at h
  · cases h
  · obtain rfl : _ = p := congrArg Prod.fst (Except.ok.inj h)
    exact enter_mishap ..

theorem start_error_mishap (r : MachineRun) (s : Stage) : Except.Mishap (r.start s) := by
  unfold start
  split
  · rfl
  · trivial

theorem forward_obstacle (event : Event) (forwards : List Forward) (s : Stage) :
    Except.Obstacle (forward event forwards s).1 := by
  induction forwards generalizing s with
  | nil => trivial
  | cons f rest ih =>
    simp only [forward]
    split
    · split
      · exact ih _
      · rename_i he
        exact (s.emitOnRoot_obstacle f.emitted event.payload).error (congrArg Prod.fst he)
    · exact ih s

theorem forward_mishap (event : Event) (forwards : List Forward) (s : Stage) :
    Except.Mishap (forward event forwards s).1 :=
  (forward_obstacle event forwards s).mishap

theorem onEvent_plain (r : MachineRun) (event : Event) (s : Stage) :
    (r.onEvent event s).1.Plain := by
  unfold onEvent
  split
  · trivial
  split
  · trivial
  · rename_i state _
    split
    · split
      · rename_i he
        exact Error.isPlain_of_isMishap
          ((forward_mishap event state.forwards s).error (congrArg Prod.fst he))
      · exact check_plain ..
    · exact check_plain ..

theorem resume_plain (r : MachineRun) (s : Stage) : (r.resume s).1.Plain := by
  unfold resume
  split
  · trivial
  split
  · trivial
  split
  · exact (enter_mishap ..).plain
  split
  · exact check_plain ..
  · rfl

end MachineRun

/-! ## Engines -/

namespace Engine

theorem start_mishap {e e' : Engine} {s s' : Stage} {p : Progress}
    (h : e.start s = .ok (p, e', s')) : p.Mishap := by
  cases e with
  | script r =>
    obtain ⟨_, hr, he⟩ := Except.map_eq_ok h
    cases he
    exact ScriptRun.start_mishap hr
  | machine r =>
    obtain ⟨_, hr, he⟩ := Except.map_eq_ok h
    cases he
    exact MachineRun.start_mishap hr

theorem start_error_mishap (e : Engine) (s : Stage) : Except.Mishap (e.start s) := by
  cases e with
  | script r => exact (ScriptRun.start_error_mishap r s).map _
  | machine r => exact (MachineRun.start_error_mishap r s).map _

theorem onEvent_plain (e : Engine) (event : Event) (s : Stage) : (e.onEvent event s).1.Plain := by
  cases e with
  | script r => exact ScriptRun.onEvent_plain r event s
  | machine r => exact MachineRun.onEvent_plain r event s

theorem resume_plain (e : Engine) (s : Stage) : (e.resume s).1.Plain := by
  cases e with
  | script r => exact ScriptRun.resume_plain r s
  | machine r => exact MachineRun.resume_plain r s

theorem restart_mishap (e : Engine) (s : Stage) : (e.restart s).1.Mishap := by
  simp only [restart]
  split
  · rename_i hs
    exact start_mishap hs
  · rename_i he
    exact (start_error_mishap _ _).error he

end Engine

end Conductor
