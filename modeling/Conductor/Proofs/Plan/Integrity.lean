import Conductor.Proofs.Plan.InPlace
import Mathlib.Data.List.Nodup

/-!
The integrity of a plan. Whatever commands a plan has seen, no task that has ended comes back, no
identifier is handed out twice, and attachments are neat: no child is under a parent twice in one role,
and no parent without children is remembered. It takes this neatness for an attachment to be undone
without a trace.
-/

namespace Conductor

namespace Plan

/-- Whose an attachment is, and in which role. -/
def Attachment.place (a : Attachment) : TaskId × String := (a.child.id, a.role)

/-- No child is under a parent twice in one role, and a parent that is remembered has children. -/
structure Neat (p : Plan) : Prop where
  distinct : ∀ parent, ((p.childrenOf parent).map Attachment.place).Nodup
  inhabited : ∀ parent, p.children.get? parent ≠ some []

variable {p q : Plan} {parent : TaskId} {child : Handle} {role : String}

namespace Neat

theorem empty : Plan.empty.Neat := ⟨fun _ => .nil, fun _ => nofun⟩

theorem of_children (h : p.Neat) (hc : q.children = p.children) : q.Neat := by
  refine ⟨fun parent => ?_, fun parent => ?_⟩
  · rw [childrenOf_congr hc]
    exact h.distinct parent
  · rw [hc]
    exact h.inhabited parent

theorem attach (h : p.Neat) (ha : p.attach parent child role = .ok q) : q.Neat := by
  obtain ⟨_, _, hnew, hchildren⟩ := attach_ok ha
  refine ⟨fun other => ?_, fun other => ?_⟩
  · rw [hchildren]
    split
    · rw [List.map_append, List.map_singleton, ← List.concat_eq_append]
      refine (h.distinct parent).concat fun hmem => ?_
      obtain ⟨a, ha, hplace⟩ := List.mem_map.mp hmem
      have hof : a.isOf child.id role = true := (isOf_iff a _ _).mpr (Prod.mk.inj hplace)
      exact absurd (hnew a ha) (by simp [hof])
    · exact h.distinct other
  · rw [(attach_eq ha).2.2, adding, Dict.get?_insert]
    split
    · simp
    · exact h.inhabited other

theorem detach (h : p.Neat) (hd : p.detach parent child role = .ok q) : q.Neat := by
  refine ⟨fun other => ?_, fun other => ?_⟩
  · rw [(detach_ok hd).2]
    split
    · exact (h.distinct parent).sublist (List.eraseP_sublist.map Attachment.place)
    · exact h.distinct other
  · rw [detach_eq hd]
    cases (p.childrenOf parent).eraseP fun a => a.isOf child.id role with
    | nil =>
      show (p.children.erase parent).get? other ≠ some []
      rw [Dict.get?_erase]
      split
      · exact (Option.some_ne_none []).symm
      · exact h.inhabited other
    | cons first later =>
      show (p.children.insert parent (first :: later)).get? other ≠ some []
      rw [Dict.get?_insert]
      split
      · exact fun he => List.cons_ne_nil first later (Option.some.inj he)
      · exact h.inhabited other

/-- There is no childless parent to forget. -/
theorem pruned (h : p.Neat) (parent : TaskId) : p.pruned parent = p := by
  unfold Plan.pruned
  cases hget : p.children.get? parent with
  | none =>
    have hnone : p.childrenOf parent = [] := by rw [childrenOf, hget]; rfl
    simp only [hnone, Dict.erase_of_get? hget]
  | some attachments =>
    have hsome : p.childrenOf parent = attachments := by rw [childrenOf, hget]; rfl
    cases attachments with
    | nil => exact absurd hget (h.inhabited parent)
    | cons first rest => simp only [hsome, Dict.insert_of_get? hget]

/-- An attachment that is undone leaves no trace. -/
theorem detach_attach (h : p.Neat) (ha : p.attach parent child role = .ok q) :
    q.detach parent child role = .ok p := by
  obtain ⟨_, _, hnew, _⟩ := attach_ok ha
  rw [(attach_eq ha).2.2]
  exact (detach_adding (a := ⟨child, role⟩) hnew).trans (congrArg Except.ok (h.pruned parent))

end Neat

theorem Reachable.neat (h : p.Reachable) : p.Neat := by
  induction h with
  | empty => exact .empty
  | withModels models _ ih => exact ih.of_children rfl
  | perform _ hc ih =>
    obtain ⟨_, hsame | ⟨parent, task, role, ⟨rfl, ha⟩ | ⟨rfl, hd⟩⟩⟩ := Ground.perform_cases hc
    · exact ih.of_children hsame
    · exact ih.attach ha
    · exact ih.detach hd

end Plan

namespace Ground

/-! ## Tasks that are handed out -/

/-- The task that a reply hands out. -/
def Reply.handle? : Reply → Option Handle
  | handle h => some h
  | _ => none

/-- The tasks that commands in turn hand out, and the ground after them. A command that is refused
changes nothing. -/
def carryOut (g : Ground) : List Command → List Handle × Ground
  | [] => ([], g)
  | c :: rest =>
    match g.perform c with
    | .error _ => g.carryOut rest
    | .ok (reply, g) =>
      let (made, last) := g.carryOut rest
      (reply.handle?.toList ++ made, last)

variable {g g' : Ground} {c : Command} {task : Handle}

/-- Only a task that was not known before is handed out. -/
theorem perform_handle (hg : g.plan.Numbered) (h : g.perform c = .ok (.handle task, g')) :
    g.plan.task? task.id = none ∧ (g'.plan.task? task.id).isSome = true := by
  cases c with
  | addRoot model =>
    cases h
    refine ⟨hg.task?_next, ?_⟩
    show ((g.plan.tasks.insert (Plan.idOf (g.plan.made + 1)) ⟨.running, .empty⟩).get? _).isSome = true
    rw [Dict.get?_insert_self]
    rfl
  | instantiate d =>
    obtain ⟨_, he, hi⟩ := instantiate_cases h
    cases he
    refine ⟨?_, (Plan.instantiate_ok hi).2.2⟩
    rw [(Plan.instantiate_eq hi).1]
    exact hg.task?_next
  | start | stop | attach | detach | setArgument | emit => cases (granted_eq h).1
  | happen | raise | record | setRootArgument | argument | state | ancestry | poll | subscribe
  | unsubscribe | isSubscribed => cases h

/-- What is true of commands in turn: the plan goes on, and the tasks that are handed out are new and
differ from each other. -/
structure Carried (g : Ground) (made : List Handle) (last : Ground) : Prop where
  reachable : last.plan.Reachable
  later : Plan.Later g.plan last.plan
  distinct : (made.map Handle.id).Nodup
  new : ∀ task ∈ made, g.plan.task? task.id = none

theorem Carried.cons {last : Ground} {made : List Handle} {reply : Reply}
    (hg : g.plan.Reachable) (hc : g.perform c = .ok (reply, g')) (h : g'.Carried made last) :
    g.Carried (reply.handle?.toList ++ made) last := by
  have hlater := (perform_cases hc).1
  have hnew : ∀ task ∈ made, g.plan.task? task.id = none :=
    fun task hmem => hlater.unknown hg.numbered (h.new task hmem)
  cases reply with
  | handle task =>
    obtain ⟨hfirst, hknown⟩ := perform_handle hg.numbered hc
    refine ⟨h.reachable, hlater.trans h.later, List.nodup_cons.mpr ⟨fun hmem => ?_, h.distinct⟩,
      List.forall_mem_cons.mpr ⟨hfirst, hnew⟩⟩
    -- A later task with the same identifier would be new to a plan that knows it.
    obtain ⟨other, hother, hid⟩ := List.mem_map.mp hmem
    have hunknown := h.new other hother
    rw [hid] at hunknown
    rw [hunknown] at hknown
    cases hknown
  | done | event | fault | value | state | tasks | signals | truth =>
    exact ⟨h.reachable, hlater.trans h.later, h.distinct, hnew⟩

theorem carryOut_carried (hg : g.plan.Reachable) (commands : List Command) :
    g.Carried (g.carryOut commands).1 (g.carryOut commands).2 := by
  induction commands generalizing g with
  | nil => exact ⟨hg, .refl _, .nil, nofun⟩
  | cons c rest ih =>
    unfold carryOut
    split
    · exact ih hg
    · rename_i reply g' hc
      exact (ih (.perform hg hc)).cons hg hc

end Ground

/-- Whatever commands a plan goes through, a task that it knows stays known, and one that has ended
stays as it ended or is finalized; the tasks that are handed out on the way are new to the plan and
differ from each other; no child is under a parent twice in one role, and no childless parent is
remembered. What a request does in place is what is granted, and where it is refused the plan is left
as it was. A child that is attached can be detached, and then the plan is as before. -/
theorem plan_integrity {g : Ground} (hg : g.plan.Reachable) (commands : List Ground.Command) :
    let made := (g.carryOut commands).1
    let p := (g.carryOut commands).2.plan
    (∀ task t, g.plan.task? task = some t → ∃ t', p.task? task = some t' ∧
      (t.state.isTerminal = true →
        t'.state.isTerminal = true ∧ (t'.state = t.state ∨ t'.state = .finalized))) ∧
    ((made.map Handle.id).Nodup ∧ ∀ task ∈ made, g.plan.task? task.id = none) ∧
    (∀ parent, ((p.childrenOf parent).map fun a => (a.child.id, a.role)).Nodup ∧
      p.children.get? parent ≠ some []) ∧
    (∀ request : Plan.Request, request.inPlace.run p =
      match request.grant p with
      | .ok q => (.ok (), q)
      | .error error => (.error error, p)) ∧
    ∀ parent child role q, p.attach parent child role = .ok q → q.detach parent child role = .ok p := by
  intro made p
  have h : g.Carried made _ := Ground.carryOut_carried hg commands
  have hneat : p.Neat := h.reachable.neat
  refine ⟨fun task t ht => ?_, ⟨h.distinct, h.new⟩,
    fun parent => ⟨hneat.distinct parent, hneat.inhabited parent⟩,
    Plan.Request.run_inPlace p, fun _ _ _ _ => hneat.detach_attach⟩
  obtain ⟨t', ht', honward⟩ := (h.later hg.numbered).2 task t ht
  exact ⟨t', ht', fun hended => ⟨honward.ended hended, honward hended⟩⟩

namespace Ground

def afoot : Handle := ⟨⟨"task-2"⟩, "Goto"⟩

/-- A root with a task under it that has succeeded. -/
def accomplished : Ground :=
  (carryOut ⟨.empty, []⟩ [.addRoot "Mission", .instantiate ⟨"Goto", .empty⟩,
    .attach ⟨⟨"task-1"⟩, "Mission"⟩ afoot "go", .happen afoot .success none]).2

theorem accomplished_reachable : accomplished.plan.Reachable :=
  (carryOut_carried (g := ⟨.empty, []⟩) .empty _).reachable

/-- What is refused, what is without effect, and what is done about the task that has succeeded. -/
def afterwards : List Command :=
  [.start afoot, .happen afoot .failed none, .attach ⟨⟨"task-1"⟩, "Mission"⟩ afoot "go",
    .instantiate ⟨"Goto", .empty⟩, .happen afoot .stop none]

theorem plan_integrity_accomplished :
    let p := (accomplished.carryOut afterwards).2.plan
    accomplished.plan.task? ⟨"task-2"⟩ = some ⟨.success, .empty⟩ ∧
      p.task? ⟨"task-2"⟩ = some ⟨.finalized, .empty⟩ ∧
      (∃ t', p.task? ⟨"task-2"⟩ = some t' ∧ t'.state.isTerminal = true) ∧
      (accomplished.carryOut afterwards).1 = [⟨⟨"task-3"⟩, "Goto"⟩] ∧
      accomplished.plan.task? ⟨"task-3"⟩ = none ∧
      p.childrenOf ⟨"task-1"⟩ = [⟨afoot, "go"⟩] ∧
      (Plan.Request.start afoot).inPlace.run p =
        (.error (.rejected "cannot start Goto<task-2> in state finalized"), p) ∧
      (p.attach ⟨"task-1"⟩ afoot "wait").bind (·.detach ⟨"task-1"⟩ afoot "wait") = .ok p := by
  intro p
  obtain ⟨hended, ⟨-, hnew⟩, -, hplace, hundone⟩ :=
    plan_integrity accomplished_reachable afterwards
  have hsuccess : accomplished.plan.task? ⟨"task-2"⟩ = some ⟨.success, .empty⟩ := by decide
  have hmade : (accomplished.carryOut afterwards).1 = [⟨⟨"task-3"⟩, "Goto"⟩] := by decide
  obtain ⟨t', ht', hstays⟩ := hended _ _ hsuccess
  refine ⟨hsuccess, by decide, ⟨t', ht', (hstays rfl).1⟩, hmade, ?_, by decide, ?_, ?_⟩
  · exact hnew ⟨⟨"task-3"⟩, "Goto"⟩ (by rw [hmade]; exact List.mem_singleton.mpr rfl)
  · have hrefused : (Plan.Request.start afoot).grant p =
        .error (.rejected "cannot start Goto<task-2> in state finalized") := by decide
    rw [hplace, hrefused]
  · obtain ⟨q, hq⟩ : ∃ q, p.attach ⟨"task-1"⟩ afoot "wait" = .ok q := ⟨_, rfl⟩
    rw [hq]
    exact hundone _ _ _ _ hq

end Ground

end Conductor
