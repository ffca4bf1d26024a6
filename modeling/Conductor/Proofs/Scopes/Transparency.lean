import Conductor.Proofs.Scopes

/-!
An inner scope is transparent. While it is open, the names that it does not declare are read and
written as if it were not there, and everything else happens in it and is gone when it is closed.

What makes this so is that an inner scope never comes to know a name that it does not declare, and
that no scope keeps a value that was read from the output of a step.
-/

namespace Conductor

namespace Scope

variable {s s' : Scope} {name : String} {value : Value}

/-- The scope once a variable was read, whether or not a value was found. -/
def afterRead (argument? output? : String → Option Value) (s : Scope) (name : String) : Scope :=
  (s.read argument? output? name).toOption.elim s Prod.snd

/-- The scope once a variable was written, if the value was of its kind. -/
def afterWrite (s : Scope) (name : String) (value : Value) : Scope :=
  (s.write name value).toOption.getD s

/-- What is read from the output of a step is not kept. -/
theorem afterRead_stepOutput {argument? output? : String → Option Value} {d : Declaration}
    {label : String} (hvalue : s.values.get? name = none) (hd : s.declaration? name = some d)
    (hrule : d.rule = .stepOutput label) : s.afterRead argument? output? name = s := by
  unfold afterRead
  cases h : s.read argument? output? name with
  | error e => rfl
  | ok result =>
    simp only [read, hvalue, hd, hrule] at h
    split at h
    · obtain ⟨_, _, rfl⟩ := Except.map_eq_ok h
      rfl
    · cases h

/-- What a scope keeps of a read does not depend on what any step put out. -/
theorem afterRead_output (argument? output? output?' : String → Option Value) (s : Scope)
    (name : String) :
    s.afterRead argument? output? name = s.afterRead argument? output?' name := by
  cases hvalue : s.values.get? name with
  | some value => simp only [afterRead, read, hvalue]
  | none =>
    cases hd : s.declaration? name with
    | none => simp only [afterRead, read, hvalue, hd]
    | some d =>
      cases hrule : d.rule with
      | stepOutput label =>
        rw [afterRead_stepOutput hvalue hd hrule, afterRead_stepOutput hvalue hd hrule]
      | constant | argument | assigned => simp only [afterRead, read, hvalue, hd, hrule]

theorem knows_afterRead (argument? output? : String → Option Value) (s : Scope)
    (name other : String) : (s.afterRead argument? output? name).knows other = s.knows other := by
  unfold afterRead
  cases h : s.read argument? output? name with
  | error e => rfl
  | ok result => exact knows_read h other

theorem knows_put (s : Scope) (name other : String) (value : Value) :
    (s.put name value).knows other = (decide (other = name) || s.knows other) := by
  have hdeclared : (s.put name value).declaration? other = s.declaration? other := rfl
  rw [knows, knows, hdeclared, Dict.contains_eq_isSome, Dict.contains_eq_isSome, put,
    Dict.get?_insert]
  by_cases h : other = name
  · simp [h]
  · simp [h]

/-- Writing a variable that the scope knows makes no other name known. -/
theorem knows_afterWrite (h : s.knows name = true) (other : String) :
    (s.afterWrite name value).knows other = s.knows other := by
  have hput : (s.put name value).knows other = s.knows other := by
    rw [knows_put]
    by_cases ho : other = name
    · simp [ho, h]
    · simp [ho]
  unfold afterWrite write
  cases s.declaration? name with
  | none => exact hput
  | some d =>
    cases hkind : d.checkKind value with
    | error e => simp [hkind, Except.map, Except.toOption]
    | ok _ => simpa [hkind, Except.map, Except.toOption] using hput

end Scope

namespace Scopes

/-! ## Levels -/

def afterReadLevels (argument? output? : String → Option Value) (name : String)
    (levels : List Scope) : List Scope :=
  (readLevels argument? output? name levels).toOption.elim levels Prod.snd

def afterWriteLevels (name : String) (value : Value) (levels : List Scope) : List Scope :=
  (writeLevels name value levels).toOption.getD levels

theorem afterReadLevels_cons (argument? output? : String → Option Value) (name : String)
    (scope : Scope) (outer : List Scope) :
    afterReadLevels argument? output? name (scope :: outer) =
      if scope.knows name then scope.afterRead argument? output? name :: outer
      else scope :: afterReadLevels argument? output? name outer := by
  unfold afterReadLevels Scope.afterRead
  simp only [readLevels]
  split
  · cases scope.read argument? output? name <;> rfl
  · cases readLevels argument? output? name outer <;> rfl

theorem afterReadLevels_output (argument? output? output?' : String → Option Value)
    (name : String) (levels : List Scope) :
    afterReadLevels argument? output? name levels =
      afterReadLevels argument? output?' name levels := by
  induction levels with
  | nil => rfl
  | cons scope outer ih =>
    rw [afterReadLevels_cons, afterReadLevels_cons, ih,
      scope.afterRead_output argument? output? output?']

/-- A scope that is not the outermost one takes only what it knows. -/
theorem afterWriteLevels_cons (name : String) (value : Value) (scope : Scope) {outer : List Scope}
    (h : outer ≠ []) : afterWriteLevels name value (scope :: outer) =
      if scope.knows name then scope.afterWrite name value :: outer
      else scope :: afterWriteLevels name value outer := by
  obtain ⟨next, rest, rfl⟩ := List.exists_cons_of_ne_nil h
  unfold afterWriteLevels Scope.afterWrite
  simp only [writeLevels]
  split
  · cases scope.write name value <;> rfl
  · cases writeLevels name value (next :: rest) <;> rfl

/-! ## Accesses -/

/-- What a model does with variables. -/
inductive Access where
  /-- A read, when the root has such arguments. -/
  | get (argument? : String → Option Value) (name : String)
  | set (name : String) (value : Value)
  | output (label : String) (value : Value)

namespace Access

/-- The scopes after an access of a model whose own scope is at a depth. A read or a write that
fails changes nothing. -/
def perform (depth : Nat) (s : Scopes) : Access → Scopes
  | get argument? name => (s.get argument? name).toOption.elim s Prod.snd
  | set name value => (s.set name value).toOption.getD s
  | output label value => s.recordOutput depth label value

/-- The access is to a variable that is none of the declared ones. -/
def isOutward (declarations : List Declaration) : Access → Bool
  | get _ name | set name _ => name ∉ declarations.map Declaration.name
  | output _ _ => false

theorem perform_get (depth : Nat) (s : Scopes) (argument? : String → Option Value)
    (name : String) : (get argument? name).perform depth s =
      ⟨afterReadLevels argument? s.output? name s.levels⟩ := by
  simp only [perform, Scopes.get, afterReadLevels]
  cases readLevels argument? s.output? name s.levels <;> rfl

theorem perform_set (depth : Nat) (s : Scopes) (name : String) (value : Value) :
    (set name value).perform depth s = ⟨afterWriteLevels name value s.levels⟩ := by
  simp only [perform, Scopes.set, afterWriteLevels]
  cases writeLevels name value s.levels <;> rfl

/-- No scope is opened or closed by an access. -/
theorem depth_perform (depth : Nat) (s : Scopes) (a : Access) :
    (a.perform depth s).depth = s.depth := by
  rw [← length_outputs, ← length_outputs]
  cases a with
  | get argument? name =>
    simp only [perform]
    cases h : s.get argument? name with
    | error e => rfl
    | ok result => exact congrArg List.length (get_outputs h)
  | set name value =>
    simp only [perform]
    cases h : s.set name value with
    | error e => rfl
    | ok s' => exact congrArg List.length (set_outputs h)
  | output label value => simp [perform, recordOutput_outputs]

end Access

/-- The scopes after accesses in turn. -/
def performAll (depth : Nat) (s : Scopes) (accesses : List Access) : Scopes :=
  accesses.foldl (Access.perform depth) s

theorem depth_performAll (depth : Nat) (s : Scopes) (accesses : List Access) :
    (s.performAll depth accesses).depth = s.depth := by
  unfold performAll
  induction accesses generalizing s with
  | nil => rfl
  | cons a rest ih => exact (ih _).trans (a.depth_perform depth s)

/-- Scopes with one more inside, which knows the declared names and no others. -/
structure Encloses (declarations : List Declaration) (s t : Scopes) (inner : Scope) : Prop where
  levels : t.levels = inner :: s.levels
  knows : ∀ name, inner.knows name = decide (name ∈ declarations.map Declaration.name)

variable {declarations : List Declaration} {s t : Scopes} {inner : Scope}

theorem push_encloses (s : Scopes) (owner : String) (declarations : List Declaration) :
    Encloses declarations s (s.push owner declarations) (.new owner declarations) where
  levels := rfl
  knows name := by
    have hvalues : (Scope.new owner declarations).values.contains name = false := rfl
    rw [Scope.knows, hvalues, Bool.or_false, Bool.eq_iff_iff]
    simp [Scope.declaration?, Scope.new]

theorem Encloses.pop (h : Encloses declarations s t inner) (hs : 0 < s.depth) :
    t.pop = (some inner, s) := by
  obtain ⟨outer, rest, hlevels⟩ := List.exists_cons_of_length_pos hs
  unfold Scopes.pop
  rw [h.levels, hlevels]
  simp only [← hlevels]

/-- An access that is made inside is made outside as well, if it is outward, and else not at all. -/
theorem Encloses.perform (h : Encloses declarations s t inner) {depth : Nat} (hd : s.depth = depth)
    (hpos : 0 < depth) (a : Access) :
    ∃ inner', Encloses declarations (if a.isOutward declarations then a.perform depth s else s)
      (a.perform depth t) inner' := by
  subst hd
  have hlevels : s.levels ≠ [] := List.ne_nil_of_length_pos hpos
  cases a with
  | get argument? name =>
    rw [Access.perform_get, Access.perform_get, h.levels, afterReadLevels_cons, h.knows]
    by_cases hname : name ∈ declarations.map Declaration.name
    · refine ⟨inner.afterRead argument? t.output? name, ?_, fun other => ?_⟩
      · simp [Access.isOutward, hname]
      · rw [Scope.knows_afterRead, h.knows]
    · refine ⟨inner, ?_, h.knows⟩
      rw [afterReadLevels_output argument? t.output? s.output?]
      simp [Access.isOutward, hname]
  | set name value =>
    rw [Access.perform_set, Access.perform_set, h.levels, afterWriteLevels_cons _ _ _ hlevels,
      h.knows]
    by_cases hname : name ∈ declarations.map Declaration.name
    · refine ⟨inner.afterWrite name value, ?_, fun other => ?_⟩
      · simp [Access.isOutward, hname]
      · rw [Scope.knows_afterWrite (by simp [h.knows, hname]), h.knows]
    · exact ⟨inner, by simp [Access.isOutward, hname], h.knows⟩
  | output label value =>
    refine ⟨{ inner with outputs := inner.outputs.insert label value }, ?_, h.knows⟩
    have hdepth : t.depth = s.depth + 1 := by simp [Scopes.depth, h.levels]
    simp [Access.perform, Access.isOutward, recordOutput, modifyAt, hdepth, h.levels]

theorem Encloses.performAll (h : Encloses declarations s t inner) {depth : Nat}
    (hd : s.depth = depth) (hpos : 0 < depth) (accesses : List Access) :
    ∃ inner', Encloses declarations
      (s.performAll depth (accesses.filter (Access.isOutward declarations)))
      (t.performAll depth accesses) inner' := by
  induction accesses generalizing s t inner with
  | nil => exact ⟨inner, h⟩
  | cons a rest ih =>
    obtain ⟨inner', h'⟩ := h.perform hd hpos a
    rw [List.filter_cons]
    cases ha : a.isOutward declarations with
    | true =>
      rw [ha, if_pos rfl] at h'
      exact ih h' ((a.depth_perform depth s).trans hd)
    | false =>
      rw [ha, if_neg Bool.false_ne_true] at h'
      exact ih h' hd

/-- Opening a scope, using it and closing it again leaves behind what the accesses to variables that
it does not declare would have left without it, made in the same order. There is always a scope
outside, that of the session at least. -/
theorem inner_scope_transparent (s : Scopes) (hs : 0 < s.depth) (owner : String)
    (declarations : List Declaration) (accesses : List Access) :
    ∃ inner, ((s.push owner declarations).performAll s.depth accesses).pop =
      (some inner, s.performAll s.depth (accesses.filter (Access.isOutward declarations))) := by
  obtain ⟨inner, h⟩ := (push_encloses s owner declarations).performAll rfl hs accesses
  refine ⟨inner, h.pop ?_⟩
  rw [depth_performAll]
  exact hs

/-! ## A sample -/

/-- The scopes of a session whose model has a mode and looks for a dock that a step is to find. -/
def docking : Scopes :=
  base.push "model" [⟨"mode", none, .assigned⟩, ⟨"dock", none, .stepOutput "find"⟩,
    ⟨"goal", some .text, .argument "target"⟩]

/-- A handler that finds a dock of its own, reads what the model declares, and writes what it
declares itself, what the model declares and what nobody does. -/
def docking.accesses : List Access :=
  [.output "find" (.text "spare"), .get (fun _ => none) "dock", .set "tries" (.int 2),
    .set "mode" (.text "safe"), .get (fun _ => some (.text "bay")) "goal", .set "alarm" (.bool true)]

theorem inner_scope_transparent_docking :
    let after := ((docking.push "handler" [⟨"tries", none, .assigned⟩]).performAll docking.depth
      docking.accesses).pop
    after.1.isSome = true ∧
      after.2 = docking.performAll docking.depth [.get (fun _ => none) "dock",
        .set "mode" (.text "safe"), .get (fun _ => some (.text "bay")) "goal",
        .set "alarm" (.bool true)] ∧
      after.2.peek? "mode" = some (.text "safe") ∧ after.2.peek? "goal" = some (.text "bay") ∧
      after.2.peek? "alarm" = some (.bool true) ∧ after.2.peek? "tries" = none ∧
      after.2.output? "find" = none := by
  intro after
  obtain ⟨inner, h⟩ := inner_scope_transparent docking (by decide) "handler"
    [⟨"tries", none, .assigned⟩] docking.accesses
  have hclosed : after.1 = some inner := congrArg Prod.fst h
  have hleft : after.2 = docking.performAll docking.depth [.get (fun _ => none) "dock",
      .set "mode" (.text "safe"), .get (fun _ => some (.text "bay")) "goal",
      .set "alarm" (.bool true)] := congrArg Prod.snd h
  rw [hclosed, hleft]
  exact ⟨rfl, rfl, by decide, by decide, by decide, by decide, by decide⟩

end Scopes

end Conductor
