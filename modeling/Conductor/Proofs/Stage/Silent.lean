import Conductor.Proofs.Stage.Kept

/-!
Silence: what is done to a plan without emitting anything on request. Tasks are made, started,
stopped, attached and detached in silence; what the plan reports of it comes after what it had to
report before.
-/

namespace Conductor

namespace Plan

/-- Nothing was emitted on request from one plan to the other, and no report was withdrawn. -/
structure Silent (p q : Plan) : Prop where
  emitted : q.emitted = p.emitted
  reported : p.outbox <+: q.outbox

namespace Silent

variable {p q r : Plan}

theorem refl (p : Plan) : Silent p p := ⟨rfl, List.prefix_refl _⟩

theorem trans (h : Silent p q) (h' : Silent q r) : Silent p r :=
  ⟨h'.emitted.trans h.emitted, h.reported.trans h'.reported⟩

theorem of_eq (he : q.emitted = p.emitted) (ho : q.outbox = p.outbox) : Silent p q :=
  ⟨he, ho ▸ List.prefix_refl _⟩

theorem instantiate {d : Description} {h : Handle} (hi : p.instantiate d = .ok (h, q)) :
    Silent p q := by
  obtain ⟨-, rfl⟩ := instantiate_eq hi
  exact of_eq rfl rfl

theorem start {task : Handle} (hs : p.start task = .ok q) : Silent p q := by
  obtain ⟨t, -, -, rfl⟩ | ⟨-, rfl⟩ := start_eq hs
  · exact ⟨rfl, List.prefix_append ..⟩
  · exact refl q

theorem stop {task : TaskId} (hs : p.stop task = .ok q) : Silent p q := by
  obtain ⟨t, -, rfl⟩ := stop_eq hs
  exact of_eq rfl rfl

theorem attach {parent : TaskId} {child : Handle} {role : String}
    (ha : p.attach parent child role = .ok q) : Silent p q := by
  obtain ⟨-, -, rfl⟩ := attach_eq ha
  exact of_eq rfl rfl

theorem detach {parent : TaskId} {child : Handle} {role : String}
    (hd : p.detach parent child role = .ok q) : Silent p q := by
  obtain ⟨children, he⟩ := p.leaving_eq parent
    ((p.childrenOf parent).eraseP fun a => a.isOf child.id role)
  rw [detach_eq hd, he]
  exact of_eq rfl rfl

/-- A request that the plan may refuse, where a refusal is of no consequence. -/
theorem granted {result : Except ProviderError Plan} (h : ∀ q, result = .ok q → Silent p q) :
    Silent p (result.toOption.getD p) := by
  cases result with
  | error e => exact refl p
  | ok q => exact h q rfl

end Silent

theorem Grown.silent {p q : Plan} (h : Grown p q) : Silent p q := by
  induction h with
  | refl => exact .refl p
  | instantiate _ hi ih => exact ih.trans (.instantiate hi)
  | start _ hs ih => exact ih.trans (.start hs)

end Plan

/-! ## Slots -/

namespace Slots

variable {s : Slots} {p q : Plan}

theorem resolve_silent {catalog : Catalog} (hcat : catalog.Modest) {key : SlotKey}
    {source : Source} {scopes scopes' : Scopes} {result : Except Error Handle} {s' : Slots}
    (h : s.resolve catalog key source scopes p = (result, s', scopes', q)) : p.Silent q := by
  obtain ⟨-, -, rfl⟩ | ⟨_, _, hproduce, hfilled⟩ := resolve_cases h
  · exact .refl q
  have hproduced := (produce_grown hcat hproduce).silent
  obtain ⟨-, rfl⟩ | ⟨_, ha, -⟩ := hfilled
  · exact hproduced
  · exact hproduced.trans (.attach ha)

theorem release_silent (s : Slots) (slot : Slot) (p : Plan) : p.Silent (s.release slot p) := by
  unfold release
  extract_lets stopped
  have hstopped : p.Silent stopped := by
    unfold stopped
    split
    · exact .refl p
    · exact .granted fun _ => .stop
  exact hstopped.trans (.granted fun _ => .detach)

theorem retire_silent {key : SlotKey} {result : Option Handle} {s' : Slots}
    (h : s.retire key p = (result, s', q)) : p.Silent q := by
  unfold retire at h
  split at h
  · cases h
    exact .refl p
  · cases h
    exact release_silent ..

theorem releaseAll_silent (slots : List Slot) (s : Slots) (p : Plan) :
    p.Silent (s.releaseAll slots p).2.2 := by
  induction slots generalizing s p with
  | nil => exact .refl p
  | cons slot rest ih => exact (release_silent ..).trans (ih ..)

theorem retireLane_silent (s : Slots) (lane : Lane) (p : Plan) :
    p.Silent (s.retireLane lane p).2.2 :=
  releaseAll_silent ..

theorem retireAll_silent (s : Slots) (p : Plan) : p.Silent (s.retireAll p).2.2 :=
  (retireLane_silent ..).trans (retireLane_silent ..)

end Slots

/-! ## Stages -/

namespace Stage

variable {lane : Lane} {s s' : Stage}

theorem resolve_silent (hcat : s.catalog.Modest) (key : SlotKey) (source : Source) :
    s.plan.Silent (s.resolve key source).2.plan := by
  obtain ⟨_, _, _, _, _, hr, -, hstarted, he⟩ := s.resolve_cases key source
  have hresolved := Slots.resolve_silent hcat hr
  rw [he]
  obtain rfl | ⟨_, -, hstart⟩ := hstarted
  · exact hresolved
  · exact hresolved.trans (.start hstart)

theorem retire_silent (s : Stage) (key : SlotKey) : s.plan.Silent (s.retire key).plan := by
  unfold retire
  split
  · rename_i hr
    exact Slots.retire_silent hr
  · exact .refl _

theorem retireAll_silent (s : Stage) : s.plan.Silent s.retireAll.plan :=
  Slots.retireAll_silent s.slots s.plan

/-- What an engine does without being loud is silent. -/
theorem Calm.silent (h : s.Calm lane false s') (hcat : s.catalog.Modest) :
    s.plan.Silent s'.plan := by
  cases h with
  | resolve key source _ => exact resolve_silent hcat key source
  | retire key _ => exact retire_silent s key
  | retireLane => exact Slots.retireLane_silent ..
  | emit _ _ hloud => cases hloud
  | read hr =>
    obtain ⟨scopes, _, rfl⟩ := read_ok hr
    exact .refl _
  | write | await | record => exact .refl _

theorem Calms.silent (h : s.Calms lane false s') (hcat : s.catalog.Modest) :
    s.plan.Silent s'.plan := by
  induction h with
  | refl => exact .refl _
  | tail hm hstep ih =>
    refine ih.trans (hstep.silent ?_)
    rw [(Kept.moves (Calms.moves hm)).catalog]
    exact hcat

end Stage

end Conductor
