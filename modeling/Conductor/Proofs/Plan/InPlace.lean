import Conductor.Proofs.Plan.Attachments
import Conductor.Proofs.Plan.Requests

/-!
Requests in place. A plan is changed bit by bit, and a refusal does not take back the changes that were
made before it: where a child is to be attached, the parent is entered among those with children before
it is asked whether the child is there already. Still a request that is refused has changed nothing,
since all that it changed before had been so already.
-/

namespace Conductor

namespace Plan

/-- What is done to a plan, one look and one change after the other. -/
inductive Doing where
  | done
  | refuse (error : ProviderError)
  | look (next : Plan → Doing)
  | change (f : Plan → Plan) (next : Doing)

namespace Doing

/-- What comes of it, and the plan as it is left, with what was changed before a refusal. -/
def run : Doing → Plan → Except ProviderError Unit × Plan
  | done, p => (.ok (), p)
  | refuse error, p => (.error error, p)
  | look next, p => (next p).run p
  | change f next, p => next.run (f p)

/-- Goes on with a task that the plan has to know. -/
def known (task : TaskId) (next : Task → Doing) : Doing :=
  look fun p =>
    match p.task? task with
    | some t => next t
    | none => refuse (.unknownTask task.text)

end Doing

def setState (p : Plan) (task : TaskId) (state : TaskState) : Plan :=
  { p with tasks := p.tasks.modify task fun t => { t with state } }

/-- The plan in which a parent is entered among those with children. -/
def opened (p : Plan) (parent : TaskId) : Plan :=
  if p.children.contains parent then p else { p with children := p.children.insert parent [] }

/-- The plan without the first attachment of a child in a role. -/
def without (p : Plan) (parent : TaskId) (child : Handle) (role : String) : Plan :=
  let rest := (p.childrenOf parent).eraseP fun a => a.isOf child.id role
  { p with children := p.children.insert parent rest }

/-- The plan in which a parent is forgotten if it has no children left. -/
def closed (p : Plan) (parent : TaskId) : Plan :=
  if (p.childrenOf parent).isEmpty then { p with children := p.children.erase parent } else p

/-- A request, one look and one change after the other. -/
def Request.inPlace : Request → Doing
  | .instantiate d => .look fun p =>
    if p.knownModels.all fun models => models.contains d.model then
      .change (fun p => (p.allocate d.model .pending d.arguments).2) <|
      .change (fun p => { p with instantiated := p.instantiated ++ [⟨idOf p.made, d.model⟩] }) .done
    else .refuse (.unknownModel d.model)
  | .start task => .known task.id fun t =>
    match t.state with
    | .pending =>
      .change (·.setState task.id .started) <|
      .change (·.observe ⟨task.id, .start, none⟩) .done
    | .started | .running => .done
    | ended => .refuse (task.inWords fun shown =>
        .rejected (s!"cannot start {shown} in state " ++ ended.display))
  | .stop task => .known task fun t =>
    .change (fun p => if t.state.isTerminal then p else p.setState task .finalized) <|
    .change (fun p => { p with stopped := p.stopped.add task }) .done
  | .attach parent child role => .known parent fun _ => .known child.id fun _ =>
    .change (·.opened parent) <| .look fun p =>
    if (p.childrenOf parent).any fun a => a.isOf child.id role then
      .refuse (child.inWords fun shown => .alreadyAttached shown role)
    else .change (·.adding parent ⟨child, role⟩) .done
  | .detach parent child role => .look fun p =>
    if (p.childrenOf parent).any fun a => a.isOf child.id role then
      .change (·.without parent child role) <| .change (·.closed parent) .done
    else .refuse (child.inWords fun shown => .notAttached shown role)
  | .setArgument task name value => .known task fun _ =>
    .change (·.setRootArgument task name value) .done
  | .emit task event payload => .known task fun _ =>
    .change (fun p => { p with emitted := (task, event) :: p.emitted }) <|
    .change (·.observe ⟨task, event, payload⟩) .done

/-- A plan as it should be left: it is the one that was granted, or it is as before. -/
def settled (p : Plan) : Except ProviderError Plan → Except ProviderError Unit × Plan
  | .ok q => (.ok (), q)
  | .error e => (.error e, p)

variable {p : Plan} {task parent : TaskId}

namespace Doing

theorem run_known_some {t : Task} (h : p.task? task = some t) (next : Task → Doing) :
    (known task next).run p = (next t).run p := by
  simp only [known, run, h]

theorem run_known_none (h : p.task? task = none) (next : Task → Doing) :
    (known task next).run p = (.error (.unknownTask task.text), p) := by
  simp only [known, run, h]

/-- A task of which nothing more is asked than that the plan knows it. -/
theorem run_known_contains (task : TaskId) (next : Doing) :
    (known task fun _ => next).run p =
      if p.tasks.contains task then next.run p else (.error (.unknownTask task.text), p) := by
  rw [Dict.contains_eq_isSome]
  cases hget : p.tasks.get? task with
  | none => exact run_known_none hget _
  | some t => exact run_known_some hget _

end Doing

theorem setState_eq {t : Task} (h : p.task? task = some t) (state : TaskState) :
    p.setState task state = { p with tasks := p.tasks.insert task { t with state } } := by
  have hget : p.tasks.get? task = some t := h
  simp only [setState, Dict.modify, hget]

/-! ## Opening and closing -/

theorem childrenOf_of_not_contains (h : ¬ p.children.contains parent = true) :
    p.childrenOf parent = [] := by
  rw [Dict.contains_eq_isSome, Option.not_isSome_iff_eq_none] at h
  rw [childrenOf, h]
  rfl

/-- To enter a parent makes no difference to what is attached. -/
theorem childrenOf_opened (p : Plan) (parent : TaskId) :
    (p.opened parent).childrenOf parent = p.childrenOf parent := by
  unfold opened
  split
  · rfl
  · rename_i hnew
    rw [childrenOf_of_not_contains hnew, childrenOf, Dict.get?_insert_self]
    rfl

theorem adding_opened (p : Plan) (parent : TaskId) (a : Attachment) :
    (p.opened parent).adding parent a = p.adding parent a := by
  unfold adding
  rw [childrenOf_opened]
  unfold opened
  split
  · rfl
  · simp only [Dict.insert_insert]

/-- A parent with children is entered already. -/
theorem opened_of_any {test : Attachment → Bool} (h : (p.childrenOf parent).any test = true) :
    p.opened parent = p := by
  refine if_pos (Decidable.of_not_not fun hnew => ?_)
  rw [childrenOf_of_not_contains hnew] at h
  cases h

theorem childrenOf_without (p : Plan) (parent : TaskId) (child : Handle) (role : String) :
    (p.without parent child role).childrenOf parent =
      (p.childrenOf parent).eraseP fun a => a.isOf child.id role := by
  rw [childrenOf, without, Dict.get?_insert_self]
  rfl

/-! ## Requests -/

namespace Request

theorem run_inPlace_start (p : Plan) (task : Handle) :
    (start task).inPlace.run p = p.settled (p.start task) := by
  simp only [inPlace, Plan.start]
  cases ht : p.task? task.id with
  | none => exact Doing.run_known_none ht _
  | some t =>
    rw [Doing.run_known_some ht]
    cases hs : t.state with
    | pending => simp only [hs, Doing.run, setState_eq ht, settled]
    | started | running | success | failed | finalized =>
      simp only [hs]
      rfl

theorem run_inPlace_stop (p : Plan) (task : TaskId) :
    (stop task).inPlace.run p = p.settled (p.stop task) := by
  simp only [inPlace, Plan.stop]
  cases ht : p.task? task with
  | none => exact Doing.run_known_none ht _
  | some t =>
    rw [Doing.run_known_some ht]
    cases hended : t.state.isTerminal with
    | true =>
      have hsame : p.tasks.insert task t = p.tasks := Dict.insert_of_get? ht
      simp [Doing.run, settled, hended, hsame]
    | false => simp [Doing.run, settled, hended, setState_eq ht]

/-- A refusal comes after the parent was entered, but only for a parent that had been before. -/
theorem run_inPlace_attach (p : Plan) (parent : TaskId) (child : Handle) (role : String) :
    (attach parent child role).inPlace.run p = p.settled (p.attach parent child role) := by
  simp only [inPlace, Doing.run_known_contains, Doing.run, childrenOf_opened, Plan.attach]
  cases p.tasks.contains parent with
  | false => rfl
  | true =>
    cases p.tasks.contains child.id with
    | false => rfl
    | true =>
      cases hany : (p.childrenOf parent).any fun a => a.isOf child.id role with
      | true =>
        rw [opened_of_any hany]
        rfl
      | false =>
        show (_, (p.opened parent).adding parent ⟨child, role⟩) = _
        rw [adding_opened]
        rfl

theorem run_inPlace_detach (p : Plan) (parent : TaskId) (child : Handle) (role : String) :
    (detach parent child role).inPlace.run p = p.settled (p.detach parent child role) := by
  simp only [inPlace, Plan.detach, Doing.run]
  cases hany : (p.childrenOf parent).any fun a => a.isOf child.id role with
  | false => rfl
  | true =>
    simp only [if_true, Doing.run, closed, childrenOf_without]
    cases hrest : (p.childrenOf parent).eraseP fun a => a.isOf child.id role with
    | nil => simp [without, Dict.erase_insert, settled]
    | cons first rest => simp [without, hrest, settled]

/-- What is done in place comes to what is granted, and where nothing is granted the plan is as
before. -/
theorem run_inPlace (p : Plan) (request : Request) :
    request.inPlace.run p = p.settled (request.grant p) := by
  cases request with
  | instantiate d =>
    simp only [inPlace, Doing.run, grant, Plan.instantiate]
    cases p.knownModels with
    | none => rfl
    | some models =>
      simp only [Option.all_some]
      by_cases hknown : models.contains d.model = true
      · rw [if_pos hknown, if_pos hknown]
        rfl
      · rw [if_neg hknown, if_neg hknown]
        rfl
  | start task => exact run_inPlace_start p task
  | stop task => exact run_inPlace_stop p task
  | attach parent child role => exact run_inPlace_attach p parent child role
  | detach parent child role => exact run_inPlace_detach p parent child role
  | setArgument task name value =>
    simp only [inPlace, Doing.run_known_contains, grant, Plan.setArgument]
    cases p.tasks.contains task <;> rfl
  | emit task event payload =>
    simp only [inPlace, Doing.run_known_contains, grant, Plan.emit]
    cases p.tasks.contains task <;> rfl

end Request

end Plan

end Conductor
