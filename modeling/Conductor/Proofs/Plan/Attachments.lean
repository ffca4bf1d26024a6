import Conductor.Proofs.Plan.Progress

/-!
One more attachment. What a plan grants or refuses depends on the roles under a parent at two points
only: where a child is attached, and where it is detached. A child that comes in a role that nobody has
there is attached if the tasks are known, it makes no difference to the requests that follow, and when
it is detached the attachments are what they were.
-/

namespace Conductor

namespace Plan

/-- Whether a child may be attached, were it for the tasks alone. -/
def accept (p : Plan) (parent : TaskId) (child : Handle) : Except ProviderError Unit :=
  if !p.tasks.contains parent then .error (.unknownTask parent.text)
  else if !p.tasks.contains child.id then .error (.unknownTask child.id.text)
  else .ok ()

/-- The plan in which no parent without children is remembered under the given name. -/
def pruned (p : Plan) (parent : TaskId) : Plan :=
  { p with children := match p.childrenOf parent with
    | [] => p.children.erase parent
    | rest => p.children.insert parent rest }

variable {p : Plan} {parent : TaskId} {child : Handle} {role : String}

@[simp] theorem childrenOf_pruned (p : Plan) (parent other : TaskId) :
    (p.pruned parent).childrenOf other = p.childrenOf other := by
  have hleaving : p.pruned parent = p.leaving parent (p.childrenOf parent) := by
    unfold pruned
    cases p.childrenOf parent <;> rfl
  rw [hleaving, childrenOf_leaving]
  split
  · rename_i he
    rw [he]
  · rfl

theorem isOf_of_role_ne {a : Attachment} (h : a.role ≠ role) (task : TaskId) :
    a.isOf task role = false :=
  (isOf_eq_false_iff a task role).mpr fun _ => h

/-- Where nobody has the role, only the tasks are looked at. -/
theorem attach_of_new (h : ∀ a ∈ p.childrenOf parent, a.role ≠ role) :
    p.attach parent child role =
      (p.accept parent child).map fun _ => p.adding parent ⟨child, role⟩ := by
  have hnew : ((p.childrenOf parent).any fun a => a.isOf child.id role) = false :=
    List.any_eq_false.mpr fun a ha => by simp [isOf_of_role_ne (h a ha)]
  unfold attach accept
  rw [hnew]
  split
  · rfl
  split
  · rfl
  · rfl

/-- The last one to come is the one that goes. -/
theorem detach_adding {a : Attachment}
    (h : ∀ other ∈ p.childrenOf parent, other.isOf a.child.id a.role = false) :
    (p.adding parent a).detach parent a.child a.role = .ok (p.pruned parent) := by
  have hothers : ∀ other ∈ p.childrenOf parent, ¬ other.isOf a.child.id a.role = true :=
    fun other hmem => Bool.eq_false_iff.mp (h other hmem)
  have hchildren : (p.adding parent a).childrenOf parent = p.childrenOf parent ++ [a] := by
    rw [childrenOf_adding, if_pos rfl]
  have hfound : ((p.childrenOf parent ++ [a]).any fun b => b.isOf a.child.id a.role) = true :=
    List.any_eq_true.mpr ⟨a, List.mem_append_right _ (List.mem_singleton.mpr rfl), isOf_self a⟩
  have hrest : (p.childrenOf parent ++ [a]).eraseP (fun b => b.isOf a.child.id a.role) =
      p.childrenOf parent := by
    rw [List.eraseP_append_right _ hothers, List.eraseP_cons, isOf_self, cond_true, List.append_nil]
  unfold detach pruned
  rw [hchildren, hrest, if_pos hfound]
  rcases hnow : p.childrenOf parent with _ | ⟨first, later⟩
  · simp only [hnow, adding, Dict.erase_insert]
  · simp only [hnow, adding, Dict.insert_insert]

/-! ## Other requests -/

theorem start_adding (p : Plan) (parent : TaskId) (a : Attachment) (task : Handle) :
    (p.adding parent a).start task = (p.start task).map (adding · parent a) := by
  have htask : (p.adding parent a).task? task.id = p.task? task.id := rfl
  unfold start
  rw [htask]
  cases p.task? task.id with
  | none => rfl
  | some t =>
    dsimp only
    split <;> rfl

theorem stop_adding (p : Plan) (parent : TaskId) (a : Attachment) (task : TaskId) :
    (p.adding parent a).stop task = (p.stop task).map (adding · parent a) := by
  have htask : (p.adding parent a).task? task = p.task? task := rfl
  unfold stop
  rw [htask]
  cases p.task? task <;> rfl

end Plan

/-- A builder that attaches nothing under a parent. -/
def Builder.Discreet (parent : TaskId) (b : Builder) : Prop :=
  ∀ arguments p, (b arguments p).2.childrenOf parent ⊆ p.childrenOf parent

def Catalog.Discreet (parent : TaskId) (c : Catalog) : Prop :=
  ∀ name b, c.builders.get? name = some b → b.Discreet parent

theorem Builder.Modest.discreet {b : Builder} (h : b.Modest) (parent : TaskId) :
    b.Discreet parent := by
  intro arguments p
  obtain ⟨-, hchildren⟩ := (h arguments p).ok
  rw [Plan.childrenOf_congr hchildren]
  exact List.Subset.refl _

theorem Catalog.Modest.discreet {c : Catalog} (h : c.Modest) (parent : TaskId) :
    c.Discreet parent :=
  fun name b hb => (h name b hb).discreet parent

end Conductor
