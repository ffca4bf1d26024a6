import Conductor.Stage

/-!
The fittings of a stage: its slots, what is attached in its plan, and its trail. An engine looks at them
when it takes a task and when it gives one up. Guards, assignments and events have nothing to do with
them: whatever the fittings are, the outcome is the same and they are left as they are.
-/

namespace Conductor

/-- The filled slots, the attachments and the trail of a stage. -/
structure Fittings where
  live : List Slot
  filled : List Handle
  children : Dict TaskId (List Plan.Attachment)
  trail : Trail

namespace Stage

def fittings (s : Stage) : Fittings := ⟨s.slots.live, s.slots.filled, s.plan.children, s.trail⟩

/-- The stage with other fittings. -/
def fitted (s : Stage) (f : Fittings) : Stage :=
  { s with
    slots := { s.slots with live := f.live, filled := f.filled }
    plan := { s.plan with children := f.children }
    trail := f.trail }

@[simp] theorem fitted_log (s : Stage) (f : Fittings) : (s.fitted f).log = s.log := rfl

/-! ## Guards -/

theorem read_fitted (s : Stage) (f : Fittings) (name : String) :
    (s.fitted f).read name = (s.read name).map fun (v, t) => (v, t.fitted f) := by
  have hread : (s.fitted f).read name =
      (s.scopes.get (s.plan.argument? s.root) name).map
        fun result => (result.1, { s.fitted f with scopes := result.2 }) := rfl
  rw [hread, read]
  cases s.scopes.get (s.plan.argument? s.root) name <;> rfl

theorem readAll_fitted (names : List String) (values : Dict String Value) (s : Stage)
    (f : Fittings) : readAll names values (s.fitted f) =
      ((readAll names values s).1, (readAll names values s).2.fitted f) := by
  induction names generalizing s values with
  | nil => rfl
  | cons name rest ih =>
    simp only [readAll, read_fitted]
    cases s.read name with
    | ok result => exact ih ..
    | error e => exact ih ..

theorem view_fitted (s : Stage) (f : Fittings) (g : Guard) (focus : Focus) :
    (s.fitted f).view g focus = ((s.view g focus).1, (s.view g focus).2.fitted f) := by
  simp only [view, readAll_fitted]
  rfl

theorem evaluate_fitted (s : Stage) (f : Fittings) (g : Guard) (focus : Focus) (memo : Memo) :
    (s.fitted f).evaluate g focus memo = ((s.evaluate g focus memo).1,
      (s.evaluate g focus memo).2.1, (s.evaluate g focus memo).2.2.fitted f) := by
  simp only [evaluate, view_fitted]

theorem interestsOf_fitted (focus : Focus) (guards : List Guard) (wanted : KeySet Interest)
    (s : Stage) (f : Fittings) : interestsOf focus guards wanted (s.fitted f) =
      ((interestsOf focus guards wanted s).1, (interestsOf focus guards wanted s).2.fitted f) := by
  induction guards generalizing s wanted with
  | nil => rfl
  | cons g rest ih =>
    simp only [interestsOf, view_fitted]
    exact ih ..

theorem subscribe_fitted (s : Stage) (f : Fittings) (lane : Lane) (guards : List Guard)
    (focus : Focus) (own : Option TaskId) :
    (s.fitted f).subscribe lane guards focus own = (s.subscribe lane guards focus own).fitted f := by
  simp only [subscribe, interestsOf_fitted]
  rfl

/-! ## Effects -/

theorem origin_fitted (s : Stage) (f : Fittings) (o : Assignment.Origin) (focus : Focus)
    (task : Option Handle) : (s.fitted f).origin o focus task =
      (s.origin o focus task).map fun (v, t) => (v, t.fitted f) := by
  cases o with
  | constant value => rfl
  | payload ref event =>
    cases ref with
    | current | root => rfl
    | held name =>
      simp only [origin, read_fitted]
      cases s.read name <;> rfl
  | currentTask => rfl
  | copied name => exact read_fitted s f name

theorem assign_fitted (s : Stage) (f : Fittings) (a : Assignment) (focus : Focus)
    (task : Option Handle) : (s.fitted f).assign a focus task =
      ((s.assign a focus task).1, (s.assign a focus task).2.fitted f) := by
  simp only [assign, origin_fitted]
  cases s.origin a.origin focus task with
  | error e => rfl
  | ok result =>
    obtain ⟨value, t⟩ := result
    have hset : (t.fitted f).scopes.set a.target value = t.scopes.set a.target value := rfl
    simp only [Except.map, hset]
    cases t.scopes.set a.target value <;> rfl

theorem emitOnRoot_fitted (s : Stage) (f : Fittings) (event : EventName)
    (payload : Option Value) : (s.fitted f).emitOnRoot event payload =
      ((s.emitOnRoot event payload).1, (s.emitOnRoot event payload).2.fitted f) := by
  unfold emitOnRoot Plan.emit
  have hknown : (s.fitted f).plan.tasks.contains (s.fitted f).root =
      s.plan.tasks.contains s.root := rfl
  rw [hknown]
  cases s.plan.tasks.contains s.root <;> rfl

/-! ## What is left as it was -/

theorem evaluate_fittings (s : Stage) (g : Guard) (focus : Focus) (memo : Memo) :
    (s.evaluate g focus memo).2.2.fittings = s.fittings :=
  congrArg (fun r : Truth × Memo × Stage => r.2.2.fittings)
    (s.evaluate_fitted s.fittings g focus memo)

theorem subscribe_fittings (s : Stage) (lane : Lane) (guards : List Guard) (focus : Focus)
    (own : Option TaskId) : (s.subscribe lane guards focus own).fittings = s.fittings := by
  have hsame := congrArg fittings (s.subscribe_fitted s.fittings lane guards focus own)
  exact hsame

theorem assign_fittings (s : Stage) (a : Assignment) (focus : Focus) (task : Option Handle) :
    (s.assign a focus task).2.fittings = s.fittings :=
  congrArg (fun r : Except Error Unit × Stage => r.2.fittings)
    (s.assign_fitted s.fittings a focus task)

theorem emitOnRoot_fittings (s : Stage) (event : EventName) (payload : Option Value) :
    (s.emitOnRoot event payload).2.fittings = s.fittings :=
  congrArg (fun r : Except Error Unit × Stage => r.2.fittings)
    (s.emitOnRoot_fitted s.fittings event payload)

end Stage

end Conductor
