import Conductor.Plan
import Conductor.Proofs.Dict

/-!
What a plan is after each request that it grants, said once. A request is refused where the task is
not known, where it cannot be started any longer, or where a role is taken or free against what is
asked; what a refusal leaves is shown elsewhere.
-/

namespace Conductor

namespace Plan

/-- The plan with a task that was just made from a description. -/
def making (p : Plan) (d : Description) : Plan :=
  { (p.allocate d.model .pending d.arguments).2 with
    instantiated := p.instantiated ++ [⟨idOf (p.made + 1), d.model⟩] }

/-- The plan in which a task has been started. -/
def launching (p : Plan) (task : TaskId) (t : Task) : Plan :=
  { p with tasks := p.tasks.insert task { t with state := .started } }.observe ⟨task, .start, none⟩

/-- The plan in which a task was asked to stop. -/
def stopping (p : Plan) (task : TaskId) (t : Task) : Plan :=
  { p with
    tasks := p.tasks.insert task
      { t with state := if t.state.isTerminal then t.state else .finalized },
    stopped := p.stopped.add task }

/-- The plan with one more attachment. -/
def adding (p : Plan) (parent : TaskId) (a : Attachment) : Plan :=
  { p with children := p.children.insert parent (p.childrenOf parent ++ [a]) }

/-- The plan in which a parent has the given children; one without children is forgotten. -/
def leaving (p : Plan) (parent : TaskId) : List Attachment → Plan
  | [] => { p with children := p.children.erase parent }
  | rest => { p with children := p.children.insert parent rest }

variable {p q : Plan}

theorem instantiate_eq {d : Description} {h : Handle} (hi : p.instantiate d = .ok (h, q)) :
    h = ⟨idOf (p.made + 1), d.model⟩ ∧ q = p.making d := by
  unfold instantiate at hi
  extract_lets known at hi
  split at hi
  · cases hi
    exact ⟨rfl, rfl⟩
  · cases hi

/-- A pending task is started, and one that is under way is left alone. -/
theorem start_eq {task : Handle} (hs : p.start task = .ok q) :
    (∃ t, p.task? task.id = some t ∧ t.state = .pending ∧ q = p.launching task.id t) ∨
      ((p.state task.id).isPending = false ∧ q = p) := by
  unfold start at hs
  split at hs
  · cases hs
  · rename_i t ht
    have hstate : p.state task.id = t.state := by simp [state, ht]
    rw [hstate]
    split at hs
    · rename_i hpending
      cases hs
      exact .inl ⟨t, ht, hpending, rfl⟩
    · rename_i hstarted
      cases hs
      exact .inr ⟨by rw [hstarted]; rfl, rfl⟩
    · rename_i hrunning
      cases hs
      exact .inr ⟨by rw [hrunning]; rfl, rfl⟩
    · cases hs

theorem stop_eq {task : TaskId} (hs : p.stop task = .ok q) :
    ∃ t, p.task? task = some t ∧ q = p.stopping task t := by
  unfold stop at hs
  split at hs
  · cases hs
  · rename_i t ht
    cases hs
    exact ⟨t, ht, rfl⟩

theorem attach_eq {parent : TaskId} {child : Handle} {role : String}
    (ha : p.attach parent child role = .ok q) :
    (p.task? child.id).isSome = true ∧
      (∀ a ∈ p.childrenOf parent, a.isOf child.id role = false) ∧
      q = p.adding parent ⟨child, role⟩ := by
  unfold attach at ha
  split at ha
  · cases ha
  split at ha
  · cases ha
  split at ha
  · cases ha
  · rename_i hchild hnew
    cases ha
    refine ⟨?_, by simpa using hnew, rfl⟩
    simpa [Dict.contains_eq_isSome, task?, Option.isSome_iff_ne_none] using hchild

theorem detach_eq {parent : TaskId} {child : Handle} {role : String}
    (hd : p.detach parent child role = .ok q) :
    q = p.leaving parent ((p.childrenOf parent).eraseP fun a => a.isOf child.id role) := by
  unfold detach at hd
  split at hd
  · split at hd
    · rename_i hnil
      cases hd
      rw [hnil, leaving]
    · rename_i hrest
      cases hd
      rw [leaving]
      exact hrest
  · cases hd

theorem setArgument_eq {task : TaskId} {name : String} {value : Value}
    (hs : p.setArgument task name value = .ok q) : q = p.setRootArgument task name value := by
  unfold setArgument at hs
  split at hs
  · cases hs
    rfl
  · cases hs

theorem emit_eq {task : TaskId} {event : EventName} {payload : Option Value}
    (he : p.emit task event payload = .ok q) :
    q = { p with emitted := (task, event) :: p.emitted }.observe ⟨task, event, payload⟩ := by
  unfold emit at he
  split at he
  · cases he
    rfl
  · cases he

/-! ## Attachments -/

@[simp] theorem childrenOf_adding (p : Plan) (parent : TaskId) (a : Attachment) (other : TaskId) :
    (p.adding parent a).childrenOf other =
      if other = parent then p.childrenOf parent ++ [a] else p.childrenOf other := by
  simp only [childrenOf, adding, Dict.get?_insert]
  split <;> rfl

@[simp] theorem childrenOf_leaving (p : Plan) (parent : TaskId) (rest : List Attachment)
    (other : TaskId) :
    (p.leaving parent rest).childrenOf other =
      if other = parent then rest else p.childrenOf other := by
  cases rest with
  | nil =>
    simp only [childrenOf, leaving, Dict.get?_erase]
    split <;> rfl
  | cons first later =>
    simp only [childrenOf, leaving, Dict.get?_insert]
    split <;> rfl

/-- Of a plan in which a parent was left with some of its children only the attachments differ. -/
theorem leaving_eq (p : Plan) (parent : TaskId) (rest : List Attachment) :
    ∃ children, p.leaving parent rest = { p with children } := by
  cases rest with
  | nil => exact ⟨_, rfl⟩
  | cons first later => exact ⟨_, rfl⟩

end Plan

end Conductor
