import Conductor.Proofs.Plan.Sparing
import Conductor.Proofs.Slots.Operations

/-!
Emptying slots. Several slots may hold the same task. Its slot's attachment goes with every slot
that is emptied, but the task itself is asked to stop only with the last one, and only if it has
not ended by then; so it is never asked while a slot holds it, and it has ended when no slot does
any longer. What others have attached under the root stays.
-/

namespace Conductor

namespace Plan

variable {p q : Plan}

theorem stop_wasStopped {task : TaskId} (h : p.stop task = .ok q) (t : TaskId) :
    q.wasStopped t = true ↔ p.wasStopped t = true ∨ t = task := by
  obtain ⟨x, -, rfl⟩ := stop_eq h
  rw [wasStopped, stopping, KeySet.contains_add, Bool.or_eq_true, decide_eq_true_eq, or_comm]
  rfl

theorem detach_wasStopped {parent : TaskId} {child : Handle} {role : String}
    (h : p.detach parent child role = .ok q) (t : TaskId) : q.wasStopped t = p.wasStopped t := by
  obtain ⟨children, he⟩ := p.leaving_eq parent
    ((p.childrenOf parent).eraseP fun a => a.isOf child.id role)
  rw [detach_eq h, he]
  rfl

end Plan

namespace Slots

variable {root : TaskId} {s t : Slots} {p q : Plan}

/-- The emptying of one slot: the slots and the plan as they are when its turn has come. -/
structure Emptying where
  slots : Slots
  slot : Slot
  plan : Plan

namespace Emptying

/-- The slots that are filled still. -/
def left (e : Emptying) : Slots := { e.slots with live := e.slots.live.erase e.slot }

def after (e : Emptying) : Plan := e.left.release e.slot e.plan

/-- No other slot holds the task, which has not ended. -/
def Frees (e : Emptying) : Prop :=
  (∀ c ∈ e.left.live, c.handle.id ≠ e.slot.handle.id) ∧
    (e.plan.state e.slot.handle.id).isTerminal = false

/-- What the emptying of a slot asks of the plan and what comes of it. -/
structure Clean (root : TaskId) (e : Emptying) : Prop where
  /-- The task is asked to stop if this frees it, and only then; then it is detached. The plan
  refuses neither. -/
  asks : ∃ q, (e.Frees ∧ e.plan.stop e.slot.handle.id = .ok q ∨ ¬ e.Frees ∧ q = e.plan) ∧
    q.detach root e.slot.handle e.slot.role = .ok e.after
  stopped : ∀ t, e.after.wasStopped t = true ↔
    e.plan.wasStopped t = true ∨ t = e.slot.handle.id ∧ e.Frees
  /-- The attachment of the slot goes, which was there once, and every other one stays. -/
  detached : ∃ l₁ l₂, e.plan.childrenOf root = l₁ ++ e.slot.attachment :: l₂ ∧
    e.after.childrenOf root = l₁ ++ l₂ ∧
    ∀ a ∈ l₁ ++ l₂, a.isOf e.slot.handle.id e.slot.role = false

/-- What becomes of the plan before the task is detached. -/
theorem asked {e : Emptying} (hk : (e.plan.task? e.slot.handle.id).isSome = true) :
    ∃ q, (if e.left.isChild e.slot.handle.id || (e.plan.state e.slot.handle.id).isTerminal
        then e.plan else (e.plan.stop e.slot.handle.id).toOption.getD e.plan) = q ∧
      (e.Frees ∧ e.plan.stop e.slot.handle.id = .ok q ∨ ¬ e.Frees ∧ q = e.plan) ∧
      q.children = e.plan.children ∧
      ∀ t, q.wasStopped t = true ↔ e.plan.wasStopped t = true ∨ t = e.slot.handle.id ∧ e.Frees := by
  have hfrees : e.Frees ↔ (e.left.isChild e.slot.handle.id ||
      (e.plan.state e.slot.handle.id).isTerminal) = false := by
    simp [Frees, isChild]
  split
  · rename_i hkeep
    have hkept : ¬ e.Frees := by
      rw [hfrees, hkeep]
      exact Bool.noConfusion
    exact ⟨e.plan, rfl, .inr ⟨hkept, rfl⟩, rfl, fun t => by simp [hkept]⟩
  · rename_i hfree
    have hfreed := hfrees.mpr (Bool.not_eq_true _ ▸ hfree)
    obtain ⟨q, hq⟩ := Plan.exists_stop hk
    obtain ⟨_, hc, _⟩ := Plan.stop_ok hq
    refine ⟨q, by rw [hq]; rfl, .inl ⟨hfreed, hq⟩, hc, fun t => ?_⟩
    rw [Plan.stop_wasStopped hq t, and_iff_left hfreed]

theorem Clean.later {e : Emptying} (h : e.Clean root) : Plan.Later e.plan e.after := by
  obtain ⟨q, hq, hd⟩ := h.asks
  refine Plan.Later.trans ?_ (Plan.detach_ok hd).1
  rcases hq with ⟨_, hs⟩ | ⟨_, rfl⟩
  · exact (Plan.stop_ok hs).1
  · exact .refl _

/-- A task that no slot holds any longer has ended. -/
theorem Clean.ended {e : Emptying} (h : e.Clean root)
    (hfree : ∀ c ∈ e.left.live, c.handle.id ≠ e.slot.handle.id) (hp : e.plan.Numbered)
    (hk : (e.plan.task? e.slot.handle.id).isSome = true) :
    (e.after.state e.slot.handle.id).isTerminal = true := by
  obtain ⟨q, ⟨_, hs⟩ | ⟨hkept, rfl⟩, hd⟩ := h.asks
  · obtain ⟨hl, _, hend⟩ := Plan.stop_ok hs
    exact (Plan.detach_ok hd).1.ended (hl hp).1 (hl.known hp hk) hend
  · refine (Plan.detach_ok hd).1.ended hp hk ?_
    by_contra hrunning
    exact hkept ⟨hfree, Bool.not_eq_true _ ▸ hrunning⟩

end Emptying

/-- From slots and a plan to others by emptying slots one after the other, each of them cleanly. -/
inductive Emptied (root : TaskId) : Slots → Plan → Slots → Plan → Prop where
  | refl (s : Slots) (p : Plan) : Emptied root s p s p
  | step {slot : Slot} {s t : Slots} {p q : Plan} :
    slot ∈ s.live → Emptying.Clean root ⟨s, slot, p⟩ →
    Emptied root (Emptying.left ⟨s, slot, p⟩) (Emptying.after ⟨s, slot, p⟩) t q →
    Emptied root s p t q

/-- The tasks of the filled slots are attached under the root in the roles of the slots, each of
them once. Others may have attached what they like. -/
structure Attached (root : TaskId) (s : Slots) (p : Plan) : Prop where
  rooted : s.root.id = root
  numbered : p.Numbered
  known : ∀ c ∈ s.live, (p.task? c.handle.id).isSome = true
  once : ∀ c ∈ s.live,
    (p.childrenOf root).filter (fun a => a.isOf c.handle.id c.role) = [c.attachment]
  distinct : s.live.Pairwise fun c d => d.attachment.isOf c.handle.id c.role = false

namespace Attached

theorem later (h : s.Attached root p) (hl : Plan.Later p q)
    (hc : q.childrenOf root = p.childrenOf root) : s.Attached root q where
  rooted := h.rooted
  numbered := (hl h.numbered).1
  known c hmem := hl.known h.numbered (h.known c hmem)
  once c hmem := by
    rw [hc]
    exact h.once c hmem
  distinct := h.distinct

/-! ## Filling -/

theorem fill (h : s.Attached root p) {key : SlotKey} {handle : Handle}
    (ha : p.attach root handle (key.role s.rolePrefix) = .ok q) :
    (s.fill key handle).Attached root q := by
  obtain ⟨hl, hknown, hnew, hc⟩ := Plan.attach_ok ha
  let a : Plan.Attachment := ⟨handle, key.role s.rolePrefix⟩
  have hothers : ∀ c ∈ s.live, c.attachment.isOf a.child.id a.role = false := by
    intro c hmem
    refine hnew _ (List.mem_of_mem_filter (p := fun a => a.isOf c.handle.id c.role) ?_)
    rw [h.once c hmem]
    exact List.mem_singleton.mpr rfl
  have hapart : ∀ c ∈ s.live, a.isOf c.handle.id c.role = false :=
    fun c hmem => (Plan.isOf_eq_false_comm (a := c.attachment)).mp (hothers c hmem)
  have hnone : (p.childrenOf root).filter (fun b => b.isOf a.child.id a.role) = [] :=
    List.filter_eq_nil_iff.mpr fun b hmem => by simp [a, hnew b hmem]
  refine ⟨h.rooted, (hl h.numbered).1, ?_, ?_, ?_⟩
  · intro c hmem
    rcases List.mem_append.mp hmem with hmem | hmem
    · exact hl.known h.numbered (h.known c hmem)
    · obtain rfl := List.mem_singleton.mp hmem
      exact hl.known h.numbered hknown
  · intro c hmem
    rw [hc, if_pos rfl, List.filter_append]
    rcases List.mem_append.mp hmem with hmem | hmem
    · rw [h.once c hmem, List.filter_singleton, hapart c hmem]
      rfl
    · obtain rfl := List.mem_singleton.mp hmem
      rw [hnone, List.nil_append, List.filter_singleton, Plan.isOf_self a]
      rfl
  · refine List.pairwise_append.mpr ⟨h.distinct, List.pairwise_singleton .., ?_⟩
    intro c hmem d hd
    obtain rfl := List.mem_singleton.mp hd
    exact hapart c hmem

theorem resolve (h : s.Attached root p) {catalog : Catalog} (hcat : catalog.Modest)
    (key : SlotKey) (source : Source) (scopes : Scopes) :
    (s.resolve catalog key source scopes p).2.1.Attached root
      (s.resolve catalog key source scopes p).2.2.2 := by
  rcases hr : s.resolve catalog key source scopes p with ⟨_, t, _, q⟩
  obtain ⟨rfl, -, rfl⟩ | ⟨_, r, hproduce, hfilled⟩ := resolve_cases hr
  · exact h
  obtain ⟨hl, hc⟩ := (produce_grown hcat hproduce).ok
  have hlater : s.Attached root r := h.later hl (Plan.childrenOf_congr hc root)
  obtain ⟨rfl, rfl⟩ | ⟨handle, ha, rfl⟩ := hfilled
  · exact hlater
  · rw [h.rooted] at ha
    exact hlater.fill ha

/-! ## Emptying -/

theorem split {slot : Slot} (h : s.Attached root p) (hmem : slot ∈ s.live) :
    ∃ l₁ l₂, p.childrenOf root = l₁ ++ slot.attachment :: l₂ ∧
      ∀ a ∈ l₁ ++ l₂, a.isOf slot.handle.id slot.role = false := by
  obtain ⟨l₁, l₂, hsplit, hbefore, _, hafter⟩ := List.filter_eq_cons_iff.mp (h.once slot hmem)
  refine ⟨l₁, l₂, hsplit, fun a ha => ?_⟩
  rcases List.mem_append.mp ha with ha | ha
  · simpa using hbefore a ha
  · simpa using List.filter_eq_nil_iff.mp hafter a ha

theorem clean {slot : Slot} (h : s.Attached root p) (hmem : slot ∈ s.live) :
    Emptying.Clean root ⟨s, slot, p⟩ := by
  obtain ⟨l₁, l₂, hsplit, hothers⟩ := h.split hmem
  obtain ⟨q, hq, hasked, hchildren, hstopped⟩ :=
    Emptying.asked (e := ⟨s, slot, p⟩) (h.known slot hmem)
  have hbefore : q.childrenOf root = l₁ ++ slot.attachment :: l₂ :=
    (Plan.childrenOf_congr hchildren root).trans hsplit
  obtain ⟨r, hr⟩ : ∃ r, q.detach root slot.handle slot.role = .ok r := by
    refine Plan.exists_detach ⟨slot.attachment, ?_, Plan.isOf_self slot.attachment⟩
    rw [hbefore]
    exact List.mem_append_right _ List.mem_cons_self
  obtain ⟨_, hc⟩ := Plan.detach_ok hr
  have hafter : Emptying.after ⟨s, slot, p⟩ = r := by
    have hroot : (Emptying.left ⟨s, slot, p⟩).root.id = root := h.rooted
    unfold Emptying.after release
    rw [hroot, hq]
    show (q.detach root slot.handle slot.role).toOption.getD q = r
    rw [hr]
    rfl
  refine ⟨⟨q, hasked, hafter ▸ hr⟩, fun t => ?_, l₁, l₂, hsplit, ?_, hothers⟩
  · rw [hafter, Plan.detach_wasStopped hr, hstopped]
  · have hself : slot.attachment.isOf slot.handle.id slot.role = true := Plan.isOf_self _
    rw [hafter, hc, if_pos rfl, hbefore, List.eraseP_append_right, List.eraseP_cons, hself,
      cond_true]
    intro a ha
    rw [hothers a (List.mem_append_left _ ha)]
    exact Bool.false_ne_true

/-- Nobody else is attached as a slot that is filled is. -/
theorem apart {slot c : Slot} (h : s.Attached root p) (hmem : slot ∈ s.live)
    (hc : c ∈ s.live.erase slot) : slot.attachment.isOf c.handle.id c.role = false := by
  have hpairs := ((List.perm_cons_erase hmem).pairwise_iff
    (fun {_ _} => (Plan.isOf_eq_false_comm (a := Slot.attachment _)).mp)).mp h.distinct
  exact (Plan.isOf_eq_false_comm (a := c.attachment)).mp ((List.pairwise_cons.mp hpairs).1 c hc)

theorem left {slot : Slot} (h : s.Attached root p) (hmem : slot ∈ s.live) :
    (Emptying.left ⟨s, slot, p⟩).Attached root (Emptying.after ⟨s, slot, p⟩) := by
  obtain ⟨l₁, l₂, hsplit, hafter, _⟩ := (h.clean hmem).detached
  have hl : Plan.Later p (Emptying.after ⟨s, slot, p⟩) := (h.clean hmem).later
  refine ⟨h.rooted, (hl h.numbered).1, ?_, ?_, h.distinct.sublist List.erase_sublist⟩
  · exact fun c hc => hl.known h.numbered (h.known c (List.mem_of_mem_erase hc))
  · intro c hc
    have honce := h.once c (List.mem_of_mem_erase hc)
    rw [hsplit, List.filter_append, List.filter_cons, h.apart hmem hc, if_neg Bool.false_ne_true,
      ← List.filter_append] at honce
    rw [hafter]
    exact honce

/-! ## Retirements -/

theorem releaseAll {slots : List Slot} (h : s.Attached root p) (hsub : ∀ c ∈ slots, c ∈ s.live)
    (hnodup : slots.Nodup) :
    Emptied root s p (s.releaseAll slots p).2.1 (s.releaseAll slots p).2.2 := by
  induction slots generalizing s p with
  | nil => exact .refl s p
  | cons slot rest ih =>
    obtain ⟨hnot, hrest⟩ := List.nodup_cons.mp hnodup
    have hmem := hsub slot List.mem_cons_self
    refine .step hmem (h.clean hmem) (ih (h.left hmem) (fun c hc => ?_) hrest)
    have hne : c ≠ slot := fun he => hnot (he ▸ hc)
    exact (List.mem_erase_of_ne hne).mpr (hsub c (List.mem_cons_of_mem _ hc))

theorem retire (h : s.Attached root p) (key : SlotKey) :
    Emptied root s p (s.retire key p).2.1 (s.retire key p).2.2 := by
  unfold Slots.retire
  split
  · exact .refl s p
  · rename_i slot hslot
    have hmem := List.mem_of_find?_eq_some hslot
    obtain ⟨_, l₁, l₂, hlive, herase⟩ := slot?_split hslot
    have hsame : s.live.eraseP (fun c => c.key == key) = s.live.erase slot := by
      have hnodup := nodup_of_distinct h.distinct
      rw [hlive, List.nodup_append] at hnodup
      have hnot : slot ∉ l₁ := fun hc => hnodup.2.2 slot hc slot List.mem_cons_self rfl
      rw [herase, hlive, List.erase_append_right _ hnot, List.erase_cons_head]
    simp only [hsame]
    exact .step hmem (h.clean hmem) (.refl _ _)

theorem retireLane (h : s.Attached root p) (lane : Lane) :
    Emptied root s p (s.retireLane lane p).2.1 (s.retireLane lane p).2.2 := by
  refine h.releaseAll (fun c hc => ?_) ?_
  · exact (List.mem_filter.mp (List.mem_reverse.mp hc)).1
  · exact List.pairwise_reverse.mpr (((nodup_of_distinct h.distinct).filter _).imp Ne.symm)

end Attached

/-! ## One slot after the other -/

theorem isChild_iff {task : TaskId} : s.isChild task = true ↔ ∃ c ∈ s.live, c.handle.id = task := by
  simp [isChild]

namespace Emptied

theorem trans {u : Slots} {r : Plan} (h : Emptied root s p t q) (h' : Emptied root t q u r) :
    Emptied root s p u r := by
  induction h with
  | refl => exact h'
  | step hmem hclean _ ih => exact .step hmem hclean (ih h')

theorem subset (h : Emptied root s p t q) : t.live ⊆ s.live := by
  induction h with
  | refl => exact List.Subset.refl _
  | step _ _ _ ih => exact List.Subset.trans ih List.erase_subset

theorem later (h : Emptied root s p t q) : Plan.Later p q := by
  induction h with
  | refl => exact .refl _
  | step _ hclean _ ih => exact hclean.later.trans ih

theorem attached (h : Emptied root s p t q) (ha : s.Attached root p) : t.Attached root q := by
  induction h with
  | refl => exact ha
  | step hmem _ _ ih => exact ih (ha.left hmem)

/-- A task that a slot still holds is not asked to stop. -/
theorem wasStopped (h : Emptied root s p t q) {task : TaskId} (hheld : t.isChild task = true) :
    q.wasStopped task = p.wasStopped task := by
  induction h with
  | refl => rfl
  | step _ hclean hrest ih =>
    refine (ih hheld).trans (Bool.eq_iff_iff.mpr ((hclean.stopped task).trans (or_iff_left ?_)))
    rintro ⟨rfl, hfree, _⟩
    obtain ⟨c, hc, he⟩ := isChild_iff.mp hheld
    exact hfree c (hrest.subset hc) he

/-- A task that has lost its last slot has ended. -/
theorem ended (h : Emptied root s p t q) (ha : s.Attached root p) {task : TaskId}
    (hheld : s.isChild task = true) (hlost : t.isChild task = false) :
    (q.state task).isTerminal = true := by
  induction h with
  | refl =>
    rw [hlost] at hheld
    cases hheld
  | @step slot s t p q hmem hclean hrest ih =>
    by_cases hstill : (Emptying.left ⟨s, slot, p⟩).isChild task = true
    · exact ih (ha.left hmem) hstill hlost
    · -- The slot was the last one with the task.
      have hfree : ∀ c ∈ s.live.erase slot, c.handle.id ≠ task :=
        fun c hc he => hstill (isChild_iff.mpr ⟨c, hc, he⟩)
      obtain ⟨c, hc, rfl⟩ := isChild_iff.mp hheld
      obtain rfl : c = slot := by
        by_contra hne
        exact hfree c ((List.mem_erase_of_ne hne).mpr hc) rfl
      refine hrest.later.ended (ha.left hmem).numbered ?_ ?_
      · exact hclean.later.known ha.numbered (ha.known c hmem)
      · exact hclean.ended hfree ha.numbered (ha.known c hmem)

end Emptied

theorem Attached.retireAll (h : s.Attached root p) :
    Emptied root s p (s.retireAll p).2.1 (s.retireAll p).2.2 := by
  have hhandlers := h.retireLane .handler
  exact hhandlers.trans ((hhandlers.attached h).retireLane .model)

/-! ## Operations -/

/-- An operation that attaches nothing under the given task and detaches nothing from it but in
slots: commands leave its children alone, and builders make and start tasks only. -/
def Operation.Spares (root : TaskId) : Operation → Prop
  | resolve catalog .. => catalog.Modest
  | drive command => command.Spares root
  | retire _ | retireLane _ | retireAll | rebind _ => True

/-- Whether an operation is there to empty slots. -/
def Operation.empties : Operation → Bool
  | retire _ | retireLane _ | retireAll => true
  | resolve .. | drive _ | rebind _ => false

theorem attached_new {p : Plan} (hp : p.Numbered) (root : Handle) (rolePrefix : String) :
    (new root rolePrefix).Attached root.id p where
  rooted := rfl
  numbered := hp
  known _ hmem := nomatch hmem
  once _ hmem := nomatch hmem
  distinct := .nil

theorem Attached.driven (h : s.Attached root p) {command : Ground.Command}
    (hs : command.Spares root) : s.Attached root (p.driven command) := by
  unfold Plan.driven
  split
  · rename_i hg
    obtain ⟨hl, hc⟩ := Ground.perform_ok hg
    exact h.later hl (hc root hs)
  · exact h

/-- Filling a slot asks no task to stop. -/
theorem resolve_wasStopped {catalog : Catalog} (hcat : catalog.Modest) (s : Slots) (key : SlotKey)
    (source : Source) (scopes : Scopes) (p : Plan) (task : TaskId) :
    (s.resolve catalog key source scopes p).2.2.2.wasStopped task = p.wasStopped task := by
  -- No attachment matters here: any one of the task tells whether the task was stopped.
  let a : Plan.Attachment := ⟨⟨task, ""⟩, ""⟩
  rcases hr : s.resolve catalog key source scopes p with ⟨_, _, _, q⟩
  obtain ⟨-, -, rfl⟩ | ⟨_, r, hproduce, hfilled⟩ := resolve_cases hr
  · rfl
  have hproduced : Plan.Keeps s.root.id a p r := (produce_grown hcat hproduce).keeps
  obtain ⟨-, rfl⟩ | ⟨_, ha, -⟩ := hfilled
  · exact hproduced.stopped
  · exact (hproduced.trans (.attach ha)).stopped

namespace Site

variable {x : Site}

theorem perform_emptied (h : x.slots.Attached root x.plan) {o : Operation} (ho : o.empties = true) :
    Emptied root x.slots x.plan (x.perform o).slots (x.perform o).plan := by
  cases o with
  | retire key => exact h.retire key
  | retireLane lane => exact h.retireLane lane
  | retireAll => exact h.retireAll
  | resolve | drive | rebind => cases ho

theorem perform_attached (h : x.slots.Attached root x.plan) {o : Operation} (ho : o.Spares root) :
    (x.perform o).slots.Attached root (x.perform o).plan := by
  cases o with
  | resolve catalog key source => exact h.resolve ho key source x.scopes
  | drive command => exact h.driven ho
  | rebind scopes => exact h
  | retire | retireLane | retireAll => exact (perform_emptied h rfl).attached h

theorem run_attached (h : x.slots.Attached root x.plan) {operations : List Operation}
    (ho : ∀ o ∈ operations, o.Spares root) :
    (x.run operations).slots.Attached root (x.run operations).plan := by
  induction operations generalizing x with
  | nil => exact h
  | cons o rest ih =>
    exact ih (perform_attached h (ho o List.mem_cons_self))
      fun o' hmem => ho o' (List.mem_cons_of_mem o hmem)

end Site

/-- Tasks that slots share are stopped once they are free. Whatever was done with slots whose root
nobody else attaches children to or detaches them from: a retirement empties the slots that it is
for, one after the other, each of them cleanly. So it stops no task that a slot holds still, and
every task that has lost its last slot has ended. Filling slots stops none. -/
theorem stopped_once_free {root : Handle} {rolePrefix : String} {scopes : Scopes} {p : Plan}
    (hp : p.Reachable) {history : List Operation} (hspares : ∀ o ∈ history, o.Spares root.id) :
    let x := Site.run ⟨.new root rolePrefix, scopes, p⟩ history
    (∀ o : Operation, o.empties = true →
      let y := x.perform o
      (∀ c, c ∈ y.slots.live ↔ c ∈ x.slots.live ∧ o.retires c.key = false) ∧
      Emptied root.id x.slots x.plan y.slots y.plan ∧
      ∀ task,
        (y.slots.isChild task = true → y.plan.wasStopped task = x.plan.wasStopped task) ∧
        (x.slots.isChild task = true → y.slots.isChild task = false →
          (y.plan.state task).isTerminal = true)) ∧
    ∀ (catalog : Catalog) (key : SlotKey) (source : Source), catalog.Modest →
      ∀ task, (x.perform (.resolve catalog key source)).plan.wasStopped task =
        x.plan.wasStopped task := by
  intro x
  have hattached : x.slots.Attached root.id x.plan :=
    Site.run_attached (x := ⟨.new root rolePrefix, scopes, p⟩)
      (attached_new hp.numbered root rolePrefix) hspares
  have hkeyed : x.slots.Keyed := Site.run_keyed (keyed_new root rolePrefix) history
  refine ⟨fun o ho => ?_, fun catalog key source hcat => ?_⟩
  · intro y
    have hemptied := Site.perform_emptied hattached ho
    refine ⟨fun c => ?_, hemptied, fun task => ⟨hemptied.wasStopped, hemptied.ended hattached⟩⟩
    rcases Site.perform_slots hkeyed o with hs | ⟨_, _, _, _, rfl, _⟩
    · show c ∈ (x.perform o).slots.live ↔ _
      rw [hs, keeping, List.mem_filter, Bool.not_eq_true']
    · cases ho
  · exact resolve_wasStopped hcat x.slots key source x.scopes x.plan

/-- A handler holds the task of the model too, through a variable. Emptying the handler's slot does
not stop it, emptying both does. -/
theorem stopped_once_free_shared :
    let held : Declaration := ⟨"held", some .task, .constant (.task ⟨⟨"task-2"⟩, "Worker"⟩)⟩
    let history : List Operation :=
      [.walk, .rebind (Scopes.base.push "walker" [held]), .resolve .empty watch (.held "held")]
    let x := Site.sample.run history
    let y := x.perform (.retireLane .handler)
    let z := x.perform .retireAll
    (∀ o ∈ history, o.Spares Handle.sample.id) ∧
      x.slots.children = [⟨⟨"task-2"⟩, "Worker"⟩, ⟨⟨"task-2"⟩, "Worker"⟩] ∧
      y.plan.wasStopped ⟨"task-2"⟩ = false ∧ y.slots.isLive walk = true ∧
      z.plan.wasStopped ⟨"task-2"⟩ = true ∧ (z.plan.state ⟨"task-2"⟩).isTerminal = true := by
  intro held history x y z
  have hspares : ∀ o ∈ history, o.Spares Handle.sample.id := by
    intro o ho
    simp only [history, List.mem_cons, List.not_mem_nil, or_false] at ho
    rcases ho with rfl | rfl | rfl
    · exact Session.sample_modest
    · trivial
    · exact Catalog.Modest.empty
  obtain ⟨hempties, _⟩ :=
    @stopped_once_free .sample "coordination" .base _ Plan.sample_reachable history hspares
  obtain ⟨_, _, hlane⟩ := hempties (.retireLane .handler) rfl
  obtain ⟨_, _, hall⟩ := hempties .retireAll rfl
  have hkept := (hlane ⟨"task-2"⟩).1 (by decide)
  refine ⟨hspares, by decide, ?_, by decide, by decide, ?_⟩
  · exact hkept.trans (by decide)
  · exact (hall ⟨"task-2"⟩).2 (by decide) (by decide)

end Slots

end Conductor
