import Conductor.Proofs.Scopes.Reads
import Conductor.Proofs.Scopes.Stability
import Conductor.Proofs.Stage.Attention
import Mathlib.Data.List.Nodup

/-!
What guards and arguments read. In whatever order their variables are read, the values come out the
same and so do the scopes, because no read changes what another one finds. Arguments are read in the
order of their names, so of those that cannot be bound the first by name is reported.
-/

namespace Conductor

namespace Argument

/-- What an argument is bound to, when its variable is read first. -/
def supplied (argument? : String → Option Value) (s : Scopes) : Argument → Except Error Value
  | value v => .ok v
  | read name => s.reading argument? name

def valueIn (argument? : String → Option Value) (s : Scopes) (a : Argument) : Value :=
  (a.supplied argument? s).toOption.getD .null

def reads? : Argument → Option String
  | value _ => none
  | read name => some name

theorem supplied_of_get {argument? : String → Option Value} {s s' : Scopes} {name : String}
    {value : Value} (h : s.get argument? name = .ok (value, s')) (a : Argument) :
    a.supplied argument? s' = a.supplied argument? s := by
  cases a with
  | value v => rfl
  | read other =>
    rw [← Scopes.afterGet_of_ok h]
    exact Scopes.afterGet_reading argument? s name other

end Argument

namespace Slots

variable {argument? : String → Option Value}

/-- Arguments are bound if each can be, and then to what it is bound to on its own. -/
theorem bindArguments_eq_ok {arguments : List (String × Argument)} {bound bound' : Dict String Value}
    {s s' : Scopes} : bindArguments argument? arguments bound s = (.ok bound', s') ↔
      (∀ a ∈ arguments, ∃ value, a.2.supplied argument? s = .ok value) ∧
        bound' = arguments.foldl (fun d a => d.insert a.1 (a.2.valueIn argument? s)) bound ∧
        s' = s.afterGets argument? (arguments.filterMap fun a => a.2.reads?) := by
  induction arguments generalizing bound s with
  | nil => simp [bindArguments, Scopes.afterGets, eq_comm]
  | cons first rest ih =>
    obtain ⟨name, a⟩ := first
    cases a with
    | value v =>
      rw [bindArguments, ih]
      simp [Argument.supplied, Argument.valueIn, Argument.reads?, Except.toOption]
    | read other =>
      cases hg : s.get argument? other with
      | error e =>
        have hreading : s.reading argument? other = .error e := by
          rw [Scopes.reading, hg]
          rfl
        simp [bindArguments, hg, Argument.supplied, hreading]
      | ok result =>
        have hread : Argument.supplied argument? s (.read other) = .ok result.1 :=
          Scopes.reading_of_get hg
        simp only [bindArguments, hg]
        rw [ih]
        simp [Argument.supplied_of_get hg, Argument.valueIn, hread, Argument.reads?,
          Scopes.afterGets, Scopes.afterGet_of_ok hg, Except.toOption]

/-- What is reported is what the first of the arguments that cannot be bound is refused for on its
own. -/
theorem bindArguments_error {arguments : List (String × Argument)} {bound : Dict String Value}
    {s s' : Scopes} {e : Error}
    (h : bindArguments argument? arguments bound s = (.error e, s')) :
    ∃ front a back, arguments = front ++ a :: back ∧
      (∀ b ∈ front, ∃ value, b.2.supplied argument? s = .ok value) ∧
      a.2.supplied argument? s = .error e := by
  induction arguments generalizing bound s with
  | nil => cases h
  | cons first rest ih =>
    obtain ⟨name, a⟩ := first
    cases a with
    | value v =>
      obtain ⟨front, a, back, rfl, hfront, ha⟩ := ih h
      exact ⟨(name, .value v) :: front, a, back, rfl, List.forall_mem_cons.mpr ⟨⟨v, rfl⟩, hfront⟩, ha⟩
    | read other =>
      simp only [bindArguments] at h
      split at h
      · rename_i value t hg
        obtain ⟨front, a, back, rfl, hfront, ha⟩ := ih h
        simp only [Argument.supplied_of_get hg] at hfront ha
        have hread : Argument.supplied argument? s (.read other) = .ok value :=
          Scopes.reading_of_get hg
        exact ⟨(name, .read other) :: front, a, back, rfl,
          List.forall_mem_cons.mpr ⟨⟨value, hread⟩, hfront⟩, ha⟩
      · rename_i refused hg
        cases h
        refine ⟨[], _, rest, rfl, List.forall_mem_nil _, ?_⟩
        rw [Argument.supplied, Scopes.reading, hg]
        rfl

/-- Each argument of a map is bound to what it is bound to on its own. -/
theorem bindArguments_get? {arguments : Dict String Argument} {bound : Dict String Value}
    {s s' : Scopes} (h : bindArguments argument? arguments.entries .empty s = (.ok bound, s'))
    (name : String) :
    (bound.get? name).map .ok = (arguments.get? name).map (Argument.supplied argument? s) := by
  obtain ⟨hsupplied, rfl, -⟩ := bindArguments_eq_ok.mp h
  rw [Dict.get?_insertAll (Argument.valueIn argument? s), Dict.get?_empty, Option.or_none,
    Option.map_map]
  cases ha : arguments.get? name with
  | none => rfl
  | some a =>
    obtain ⟨value, hvalue⟩ := hsupplied _ (Dict.get?_eq_some_iff.mp ha)
    simp only [Option.map_some, Function.comp_apply, Argument.valueIn, hvalue]
    rfl

/-- The order in which arguments are bound is of no consequence. -/
theorem bindArguments_perm {arguments arguments' : List (String × Argument)}
    (h : arguments.Perm arguments') (hnames : (arguments.map Prod.fst).Nodup)
    (bound bound' : Dict String Value) (s s' : Scopes) :
    bindArguments argument? arguments bound s = (.ok bound', s') ↔
      bindArguments argument? arguments' bound s = (.ok bound', s') := by
  have hfold : arguments.foldl (fun d a => d.insert a.1 (a.2.valueIn argument? s)) bound =
      arguments'.foldl (fun d a => d.insert a.1 (a.2.valueIn argument? s)) bound := by
    refine h.foldl_eq' (fun a ha b hb d => ?_) bound
    by_cases hab : a.1 = b.1
    · rw [List.inj_on_of_nodup_map hnames ha hb hab]
    · exact Dict.insert_comm hab d _ _
  have hreads := Scopes.afterGets_perm (h.filterMap fun a => a.2.reads?) argument? s
  simp only [bindArguments_eq_ok, h.mem_iff, hfold, hreads]

end Slots

namespace Stage

theorem readAll_scopes (names : List String) (values : Dict String Value) (s : Stage) :
    (readAll names values s).2 =
      { s with scopes := s.scopes.afterGets (s.plan.argument? s.root) names } := by
  induction names generalizing values s with
  | nil => rfl
  | cons name rest ih =>
    simp only [readAll, read, Scopes.afterGets, List.foldl_cons]
    cases hg : s.scopes.get (s.plan.argument? s.root) name with
    | error e =>
      simp only [Except.map, Scopes.afterGet_of_error hg]
      exact ih values s
    | ok result =>
      simp only [Except.map, Scopes.afterGet_of_ok hg]
      exact ih _ { s with scopes := result.2 }

/-- The order in which the variables of a guard are read is of no consequence. -/
theorem readAll_perm {names names' : List String} (h : names.Perm names')
    (values : Dict String Value) (s : Stage) : readAll names values s = readAll names' values s := by
  refine Prod.ext (Dict.ext_get? fun name => ?_) ?_
  · rw [(readAll_ok names rfl).2, (readAll_ok names' rfl).2]
    simp only [h.mem_iff]
  · rw [readAll_scopes, readAll_scopes, Scopes.afterGets_perm h]

end Stage

namespace Scopes

/-- A variable that was read is read again with the same value, whatever the arguments of the root
have become, and reading it makes no difference to the others and to anything but the values that
are held. So it does not matter in which order guards and arguments read: each argument is bound to
what it would be bound to if it were the first to be read, and the first by name that cannot be bound
is refused for what it would be refused for then. The value stays until the variable is written or
hidden, the output of its step is recorded anew, or a scope that the value comes from is forgotten
or closed. -/
theorem reads_stable (s : Scopes) :
    (∀ argument? name value s', s.get argument? name = .ok (value, s') →
      (∀ argument?', s'.get argument?' name = .ok (value, s')) ∧
        (∀ argument?' other, other ≠ name →
          s'.reading argument?' other = s.reading argument?' other) ∧
        s'.levels.map Scope.withoutValues = s.levels.map Scope.withoutValues ∧
        ∀ operations, Undisturbed name s' operations →
          ∀ argument?', (s'.run operations).reading argument?' name = .ok value) ∧
      (∀ argument? names name,
        (s.afterGets argument? names).reading argument? name = s.reading argument? name) ∧
      (∀ (stage : Stage) names names', names.Perm names' →
        Stage.readAll names .empty stage = Stage.readAll names' .empty stage) ∧
      ∀ argument? (arguments : Dict String Argument),
        (∀ order, arguments.entries.Perm order → ∀ bound s',
          Slots.bindArguments argument? arguments.entries .empty s = (.ok bound, s') ↔
            Slots.bindArguments argument? order .empty s = (.ok bound, s')) ∧
        (∀ bound s', Slots.bindArguments argument? arguments.entries .empty s = (.ok bound, s') →
          ∀ name, (bound.get? name).map .ok =
            (arguments.get? name).map (Argument.supplied argument? s)) ∧
        ∀ e s', Slots.bindArguments argument? arguments.entries .empty s = (.error e, s') →
          ∃ front a back, arguments.entries = front ++ a :: back ∧
            (∀ b ∈ front, ∃ value, b.2.supplied argument? s = .ok value) ∧
            a.2.supplied argument? s = .error e := by
  refine ⟨fun argument? name value s' hg => ⟨fun _ => get_again hg, fun _ other hother =>
    get_reading hg hother, get_withoutValues hg, fun operations hrun => ?_⟩,
    fun argument? names name => afterGets_reading argument? s names name,
    fun stage names names' h => Stage.readAll_perm h .empty stage,
    fun argument? arguments => ⟨fun order h bound s' => ?_,
      fun bound s' hbound => Slots.bindArguments_get? hbound,
      fun e s' he => Slots.bindArguments_error he⟩⟩
  · exact (yields_of_get hg).run hrun
  · exact Slots.bindArguments_perm h arguments.nodup_keys .empty bound s s'

/-- A model that has found a dock, and a handler over it that looks for the same dock. -/
def moored : Scopes :=
  ((base.push "model" [⟨"dock", none, .stepOutput "find"⟩]).recordOutput 1 "find" (.text "bay")).push
    "handler" [⟨"berth", none, .stepOutput "find"⟩]

/-- While a handler comes and goes that puts out nothing of the name. -/
def moored.operations : List Operation :=
  [.access 2 (.set "mode" (.text "safe")), .access 2 (.output "search" .null), .reset 2, .pop,
    .push "handler" [⟨"berth", none, .assigned⟩], .access 2 (.get (fun _ => some .null) "mode")]

/-- Arguments for a task at the dock. -/
def moored.arguments : Dict String Argument :=
  (Dict.empty.insert "at" (.read "dock")).insert "tries" (.value (.int 2))

theorem reads_stable_moored :
    let argument? : String → Option Value := fun _ => none
    let bound := (Dict.empty.insert "at" (.text "bay")).insert "tries" (.int 2)
    let unbound := moored.arguments.insert "by" (.read "crane")
    moored.get argument? "dock" = .ok (.text "bay", moored) ∧
      Undisturbed "dock" moored moored.operations ∧
      (moored.run moored.operations).reading argument? "dock" = .ok (.text "bay") ∧
      Slots.bindArguments argument? moored.arguments.entries.reverse .empty moored =
        (.ok bound, moored) ∧
      Slots.bindArguments argument? unbound.entries .empty moored =
        (.error (.unboundVariable "crane"), moored) ∧
      ∃ a ∈ unbound.entries, a.2.supplied argument? moored = .error (.unboundVariable "crane") := by
  intro argument? bound unbound
  obtain ⟨hread, -, -, hbind⟩ := reads_stable moored
  have hget : moored.get argument? "dock" = .ok (.text "bay", moored) := by decide
  have hrun : Undisturbed "dock" moored moored.operations := by decide
  have hbound : Slots.bindArguments argument? moored.arguments.entries .empty moored =
      (.ok bound, moored) := by decide
  have hunbound : Slots.bindArguments argument? unbound.entries .empty moored =
      (.error (.unboundVariable "crane"), moored) := by decide
  obtain ⟨horder, -, -⟩ := hbind argument? moored.arguments
  obtain ⟨-, -, hrefused⟩ := hbind argument? unbound
  obtain ⟨front, a, back, hentries, -, ha⟩ := hrefused _ _ hunbound
  refine ⟨hget, hrun, (hread _ _ _ _ hget).2.2.2 _ hrun _,
    (horder _ (List.reverse_perm _).symm _ _).mp hbound, hunbound, a, ?_, ha⟩
  rw [hentries]
  exact List.mem_append_right front List.mem_cons_self

/-- A variable may lose its value although nothing is written or put out, and although its own scope
is neither forgotten nor hidden: here the scope of the model is forgotten under that of the handler,
or the handler is closed that has put out another dock. -/
theorem value_lost_from_other_scope :
    let argument? : String → Option Value := fun _ => none
    let other := moored.recordOutput 2 "find" (.text "quay")
    (moored.get argument? "berth" = .ok (.text "bay", moored) ∧ moored.home? "berth" = some 2 ∧
        (moored.reset 1).home? "berth" = some 2 ∧
        (moored.reset 1).reading argument? "berth" = .error (.unboundVariable "berth")) ∧
      (other.get argument? "dock" = .ok (.text "quay", other) ∧ other.home? "dock" = some 1 ∧
        other.pop.2.home? "dock" = some 1 ∧
        other.pop.2.reading argument? "dock" = .ok (.text "bay")) := by
  decide

end Scopes

end Conductor
