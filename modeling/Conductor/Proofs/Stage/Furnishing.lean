import Conductor.Proofs.Plan.Attachments
import Conductor.Proofs.Slots.Roles

/-!
Furnishing a stage. While a lane has no task, a task that is taken for it is obtained without a look at
the number of the activation: the key only says how the slot is called and in which role the task is
attached. When the task is given up, the stage is what it would be without the key.
-/

namespace Conductor

/-- What is attached under the root is what the slots are filled with, in the roles of their keys. -/
structure Stage.Owned (s : Stage) : Prop where
  roled : s.slots.Roled
  attached : s.plan.childrenOf s.root ⊆ s.slots.attachments

namespace Stage

/-- No slot of a lane is filled, and nothing is attached under the root in a role of the lane. -/
structure Bare (lane : Lane) (s : Stage) : Prop where
  free : ∀ c ∈ s.slots.live, c.key.lane ≠ lane
  unattached : ∀ key : SlotKey, key.lane = lane → ∀ a ∈ s.plan.childrenOf s.root,
    a.role ≠ key.role s.slots.rolePrefix

/-- What a source comes to, whatever the slot is that it is resolved for: the task, what the slot is
filled with, and the stage otherwise. -/
def procure (s : Stage) (source : Source) : Except Error Handle × Option Handle × Stage :=
  match Slots.produce s.catalog s.root source s.scopes s.plan with
  | (.error e, scopes, plan) => (.error e, none, { s with scopes, plan })
  | (.ok task, scopes, plan) =>
    match plan.accept s.root task with
    | .error e => (.error (.provider e), none, { s with scopes, plan })
    | .ok () =>
      if (plan.state task.id).isPending then
        match plan.start task with
        | .ok plan => (.ok task, some task, { s with scopes, plan })
        | .error e => (.error (.provider e), some task, { s with scopes, plan })
      else (.ok task, some task, { s with scopes, plan })

/-- The stage that has it on record that a slot was filled. -/
def noting (s : Stage) (key : SlotKey) (task : Handle) : Stage :=
  { s with
    slots := { s.slots with filled := task :: s.slots.filled }
    trail := s.trail.record (.resolved task (key.role s.slots.rolePrefix)) }

/-- The slot of a key on a stage. -/
def slotOf (s : Stage) (key : SlotKey) (task : Handle) : Slot :=
  ⟨key, task, key.role s.slots.rolePrefix⟩

/-- The stage with a slot filled. -/
def furnished (s : Stage) (key : SlotKey) (task : Handle) : Stage :=
  { s with
    slots := { s.slots with live := s.slots.live ++ [s.slotOf key task] }
    plan := s.plan.adding s.root (s.slotOf key task).attachment }

/-- The plan in which a task that no filled slot holds is stopped. -/
def stopping (s : Stage) (task : Handle) : Plan :=
  if s.slots.isChild task.id || (s.plan.state task.id).isTerminal then s.plan
  else (s.plan.stop task.id).toOption.getD s.plan

/-- The stage when a task that was in a slot is given up. -/
def relinquished (s : Stage) (task : Handle) : Stage :=
  { s with plan := (s.stopping task).pruned s.root }.recordTrail (.retired task)

variable {lane : Lane} {s : Stage} {key : SlotKey} {task : Handle} {source : Source}

/-- A lane without filled slots is bare where the attachments are those of the slots: the roles of the
other lane are never those of this one. -/
theorem Owned.bare (h : s.Owned) (hfree : s.slots.holdings lane = []) : s.Bare lane := by
  have hlanes : ∀ c ∈ s.slots.live, c.key.lane ≠ lane := by
    intro c hc hlane
    have hheld := Slots.mem_holdings hc hlane
    rw [hfree] at hheld
    cases hheld
  refine ⟨hlanes, fun key hkey a ha => ?_⟩
  obtain ⟨c, hc, rfl⟩ := List.mem_map.mp (h.attached ha)
  have hne : c.key.lane ≠ key.lane := hkey ▸ hlanes c hc
  show c.role ≠ _
  rw [h.roled c hc]
  exact SlotKey.role_ne hne _

namespace Bare

theorem slot?_none (h : s.Bare lane) (hkey : key.lane = lane) : s.slots.slot? key = none := by
  refine List.find?_eq_none.mpr fun c hc hfound => h.free c hc ?_
  rw [← hkey]
  exact congrArg SlotKey.lane (by simpa using hfound)

theorem filter_eq_nil (h : s.Bare lane) :
    s.slots.live.filter (fun c => c.key.lane == lane) = [] := by
  rw [List.filter_eq_nil_iff]
  intro c hc hlane
  exact h.free c hc (by simpa using hlane)

theorem of_same {t : Stage} (h : s.Bare lane) (hslots : t.slots.live = s.slots.live)
    (hroot : t.root = s.root) (hspelling : t.slots.rolePrefix = s.slots.rolePrefix)
    (hchildren : t.plan.childrenOf s.root ⊆ s.plan.childrenOf s.root) : t.Bare lane where
  free := by rw [hslots]; exact h.free
  unattached := fun key hkey a ha => by
    rw [hroot] at ha
    rw [hspelling]
    exact h.unattached key hkey a (hchildren ha)

end Bare

/-! ## Taking a task -/

/-- Nothing that obtaining a task does is attached under the root. -/
theorem produce_children {catalog : Catalog} {root : TaskId} (hd : catalog.Discreet root)
    {scopes scopes' : Scopes} {p q : Plan} {result : Except Error Handle}
    (h : Slots.produce catalog root source scopes p = (result, scopes', q)) :
    q.childrenOf root ⊆ p.childrenOf root := by
  obtain rfl | ⟨d, made, hi⟩ | ⟨name, b, arguments, hb, rfl⟩ := Slots.produce_plan h
  · exact List.Subset.refl _
  · obtain ⟨-, hchildren, -⟩ := Plan.instantiate_ok hi
    rw [Plan.childrenOf_congr hchildren]
    exact List.Subset.refl _
  · exact hd name b hb arguments p

/-- To take a task for a lane that is bare is to obtain it and to fill the slot with it. -/
theorem Bare.resolve_eq (h : s.Bare key.lane) (hd : s.catalog.Discreet s.root) (source : Source) :
    s.resolve key source = ((s.procure source).1, match (s.procure source).2 with
      | (none, t) => t
      | (some task, t) => (t.noting key task).furnished key task) := by
  have hnone := h.slot?_none rfl
  have hlive : s.slots.isLive key = false := by rw [Slots.isLive, hnone]; rfl
  unfold resolve procure Slots.resolve
  simp only [hnone, hlive, root]
  rcases hp : Slots.produce s.catalog s.slots.root.id source s.scopes s.plan with
    ⟨result, scopes, plan⟩
  cases result with
  | error e => rfl
  | ok task =>
    have hnew : ∀ a ∈ plan.childrenOf s.slots.root.id, a.role ≠ key.role s.slots.rolePrefix :=
      fun a ha => h.unattached key rfl a (produce_children hd hp ha)
    simp only [Plan.attach_of_new hnew]
    cases plan.accept s.slots.root.id task with
    | error e => rfl
    | ok _ =>
      have hstate : ∀ a, (plan.adding s.slots.root.id a).state task.id = plan.state task.id :=
        fun _ => rfl
      simp only [Except.map, Plan.start_adding, hstate]
      cases (plan.state task.id).isPending with
      | false => rfl
      | true => cases plan.start task <;> rfl

/-- The task that is obtained is the one that the slot is filled with. -/
theorem procure_ok {held : Option Handle} {t : Stage} (h : s.procure source = (.ok task, held, t)) :
    held = some task := by
  unfold procure at h
  split at h
  · cases h
  split at h
  · cases h
  split at h
  · split at h
    · cases h
      rfl
    · cases h
  · cases h
    rfl

/-- What is the same once a task is obtained: all but the variables, the tasks of the plan and what
others attach elsewhere. -/
structure Procures (s t : Stage) : Prop where
  catalog : t.catalog = s.catalog
  slots : t.slots = s.slots
  log : t.log = s.log
  interests : t.interests = s.interests
  trail : t.trail = s.trail
  children : t.plan.childrenOf s.root ⊆ s.plan.childrenOf s.root

theorem procure_procures (hd : s.catalog.Discreet s.root) (source : Source) :
    s.Procures (s.procure source).2.2 := by
  unfold procure
  rcases hp : Slots.produce s.catalog s.root source s.scopes s.plan with ⟨result, scopes, plan⟩
  have hchildren := produce_children hd hp
  cases result with
  | error e => exact ⟨rfl, rfl, rfl, rfl, rfl, hchildren⟩
  | ok task =>
    dsimp only
    split
    · exact ⟨rfl, rfl, rfl, rfl, rfl, hchildren⟩
    split
    · split
      · rename_i hstart
        obtain ⟨-, hstarted⟩ := Plan.start_ok hstart
        refine ⟨rfl, rfl, rfl, rfl, rfl, ?_⟩
        rw [Plan.childrenOf_congr hstarted]
        exact hchildren
      · exact ⟨rfl, rfl, rfl, rfl, rfl, hchildren⟩
    · exact ⟨rfl, rfl, rfl, rfl, rfl, hchildren⟩

theorem Bare.procure (h : s.Bare lane) (hd : s.catalog.Discreet s.root) (source : Source) :
    (s.procure source).2.2.Bare lane := by
  obtain ⟨-, hslots, -, -, -, hchildren⟩ := procure_procures hd source
  refine h.of_same ?_ ?_ ?_ hchildren
  · rw [hslots]
  · rw [root, hslots, root]
  · rw [hslots]

/-! ## Giving a task up -/

theorem find?_slotOf (h : s.Bare key.lane) (task : Handle) :
    (s.slots.live ++ [s.slotOf key task]).find? (fun c => c.key == key) =
      some (s.slotOf key task) := by
  have hnone : s.slots.live.find? (fun c => c.key == key) = none := h.slot?_none rfl
  rw [List.find?_append, hnone]
  simp [slotOf]

theorem childrenOf_stopping (s : Stage) (task : Handle) (parent : TaskId) :
    (s.stopping task).childrenOf parent = s.plan.childrenOf parent := by
  unfold stopping
  split
  · rfl
  · cases hstop : s.plan.stop task.id with
    | error e => rfl
    | ok p =>
      obtain ⟨-, hchildren, -⟩ := Plan.stop_ok hstop
      exact Plan.childrenOf_congr hchildren parent

theorem release_furnished (h : s.Bare key.lane) (task : Handle) :
    s.slots.release (s.slotOf key task) (s.furnished key task).plan =
      (s.stopping task).pruned s.root := by
  have hstopped : (if s.slots.isChild task.id ||
        ((s.furnished key task).plan.state task.id).isTerminal then (s.furnished key task).plan
      else ((s.furnished key task).plan.stop task.id).toOption.getD (s.furnished key task).plan) =
        (s.stopping task).adding s.root (s.slotOf key task).attachment := by
    have hstate : (s.furnished key task).plan.state task.id = s.plan.state task.id := rfl
    rw [hstate, stopping, furnished, Plan.stop_adding]
    split
    · rfl
    · cases s.plan.stop task.id <;> rfl
  have hnew : ∀ other ∈ (s.stopping task).childrenOf s.root,
      other.role ≠ (s.slotOf key task).attachment.role := by
    rw [childrenOf_stopping]
    exact h.unattached key rfl
  unfold Slots.release
  extract_lets p
  rw [show p = _ from hstopped]
  exact congrArg (fun result => Except.toOption result |>.getD _) (Plan.detach_adding
    fun other ho => Plan.isOf_of_role_ne (hnew other ho) task.id)

/-- A task that is given up leaves nothing of the key behind. -/
theorem Bare.retire_furnished (h : s.Bare key.lane) (task : Handle) :
    (s.furnished key task).retire key = s.relinquished task := by
  have hslot : (s.furnished key task).slots.slot? key = some (s.slotOf key task) :=
    find?_slotOf h task
  have hothers : ∀ c ∈ s.slots.live, ¬ (c.key == key) = true :=
    List.find?_eq_none.mp (h.slot?_none rfl)
  have hemptied : (s.furnished key task).slots.live.eraseP (fun c => c.key == key) =
      s.slots.live := by
    simp [furnished, slotOf, List.eraseP_append_right _ hothers]
  unfold retire Slots.retire
  simp only [hslot, hemptied]
  exact congrArg (fun plan => { s with plan }.recordTrail (.retired task)) (release_furnished h task)

theorem Bare.retire_self (h : s.Bare key.lane) : s.retire key = s := by
  unfold retire Slots.retire
  rw [h.slot?_none rfl]

theorem Bare.retireLane_self (h : s.Bare lane) :
    s.retireLane lane = { s with interests := s.interests.clear lane } := by
  unfold retireLane Slots.retireLane
  rw [h.filter_eq_nil]
  rfl

theorem Bare.retireLane_furnished (h : s.Bare key.lane) (task : Handle) :
    (s.furnished key task).retireLane key.lane =
      { s.relinquished task with interests := s.interests.clear key.lane } := by
  have hown : (s.furnished key task).slots.live.filter (fun c => c.key.lane == key.lane) =
      [s.slotOf key task] := by
    simp [furnished, slotOf, h.filter_eq_nil]
  have hnot : s.slotOf key task ∉ s.slots.live := fun hmem => h.free _ hmem rfl
  have hemptied : (s.furnished key task).slots.live.erase (s.slotOf key task) = s.slots.live := by
    simp [furnished, List.erase_append_right _ hnot]
  unfold retireLane Slots.retireLane
  simp only [hown, List.reverse_singleton, Slots.releaseAll, hemptied]
  exact congrArg (fun plan => ({ s with
    plan, interests := s.interests.clear key.lane } : Stage).recordTrail (.retired task))
      (release_furnished h task)

theorem Bare.relinquished (h : s.Bare lane) (task : Handle) : (s.relinquished task).Bare lane := by
  refine h.of_same rfl rfl rfl ?_
  show ((s.stopping task).pruned s.root).childrenOf s.root ⊆ _
  rw [Plan.childrenOf_pruned, childrenOf_stopping]
  exact List.Subset.refl _

end Stage

end Conductor
