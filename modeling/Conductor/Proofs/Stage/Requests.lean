import Conductor.Proofs.Interests
import Conductor.Proofs.Plan.Requests
import Conductor.Proofs.Stage.Kept

/-!
What the moves of an engine do to the plan and to the interests: the plan is only asked, and each
change of what a lane waits for is noted as far as it shows outside.
-/

namespace Conductor

/-! ## Slots -/

namespace Slots

variable {s s' : Slots} {p q : Plan}

theorem produce_asked {catalog : Catalog} {root : TaskId} {source : Source}
    {scopes scopes' : Scopes} {result : Except Error Handle} (hcat : catalog.Civil)
    (h : produce catalog root source scopes p = (result, scopes', q)) : p.Asked q := by
  obtain rfl | ⟨d, task, hi⟩ | ⟨name, build, arguments, hb, rfl⟩ := produce_plan h
  · exact .refl _
  · exact .instantiate hi
  · exact hcat name build hb arguments p

theorem resolve_asked {catalog : Catalog} (hcat : catalog.Civil) {key : SlotKey}
    {source : Source} {scopes scopes' : Scopes} {result : Except Error Handle}
    (h : s.resolve catalog key source scopes p = (result, s', scopes', q)) : p.Asked q := by
  obtain ⟨-, -, rfl⟩ | ⟨_, _, hproduce, hfilled⟩ := resolve_cases h
  · exact .refl q
  have hproduced := produce_asked hcat hproduce
  obtain ⟨-, rfl⟩ | ⟨_, ha, -⟩ := hfilled
  · exact hproduced
  · exact hproduced.trans (.of_grant (.attach ..) ha)

theorem release_asked (s : Slots) (slot : Slot) (p : Plan) : p.Asked (s.release slot p) := by
  unfold release
  extract_lets stopped
  have hstopped : p.Asked stopped := by
    unfold stopped
    split
    · exact .refl p
    · exact .granted (.stop slot.handle.id)
  exact hstopped.trans (.granted (.detach s.root.id slot.handle slot.role))

theorem retire_asked {key : SlotKey} {result : Option Handle}
    (h : s.retire key p = (result, s', q)) : p.Asked q := by
  unfold retire at h
  split at h
  · cases h
    exact .refl p
  · cases h
    exact release_asked ..

theorem releaseAll_asked (slots : List Slot) (s : Slots) (p : Plan) :
    p.Asked (s.releaseAll slots p).2.2 := by
  induction slots generalizing s p with
  | nil => exact .refl p
  | cons slot rest ih => exact (release_asked ..).trans (ih ..)

theorem retireLane_asked (s : Slots) (lane : Lane) (p : Plan) :
    p.Asked (s.retireLane lane p).2.2 :=
  releaseAll_asked ..

theorem retireAll_asked (s : Slots) (p : Plan) : p.Asked (s.retireAll p).2.2 :=
  (retireLane_asked ..).trans (retireLane_asked ..)

end Slots

/-! ## Stages -/

namespace Stage

variable {lane : Lane} {s s' : Stage}

theorem resolve_asked (hcat : s.catalog.Civil) (key : SlotKey) (source : Source) :
    s.plan.Asked (s.resolve key source).2.plan := by
  obtain ⟨_, _, _, _, _, hr, -, hstarted, he⟩ := s.resolve_cases key source
  have hresolved := Slots.resolve_asked hcat hr
  rw [he]
  obtain rfl | ⟨_, -, hstart⟩ := hstarted
  · exact hresolved
  · exact hresolved.trans (.of_grant (.start _) hstart)

theorem retire_asked (s : Stage) (key : SlotKey) : s.plan.Asked (s.retire key).plan := by
  unfold retire
  split
  · rename_i hr
    exact Slots.retire_asked hr
  · exact .refl _

theorem retireAll_asked (s : Stage) : s.plan.Asked s.retireAll.plan :=
  Slots.retireAll_asked s.slots s.plan

theorem retireAll_interests (s : Stage) : s.retireAll.interests = s.interests.clearAll := rfl

theorem Move.asked (h : s.Move lane s') (hcat : s.catalog.Civil) : s.plan.Asked s'.plan := by
  cases h with
  | resolve key source _ => exact resolve_asked hcat key source
  | retire key _ => exact retire_asked s key
  | retireLane => exact Slots.retireLane_asked ..
  | emit event payload =>
    unfold emitOnRoot
    split
    · exact .refl _
    · rename_i he
      exact .of_grant (.emit ..) he
  | read hr =>
    obtain ⟨scopes, _, rfl⟩ := read_ok hr
    exact .refl _
  | write | output | reset | await | record => exact .refl _

theorem Moves.asked (h : s.Moves lane s') (hcat : s.catalog.Civil) : s.plan.Asked s'.plan := by
  induction h with
  | refl => exact .refl _
  | tail hm hstep ih =>
    refine ih.trans (hstep.asked ?_)
    rw [(Kept.moves hm).catalog]
    exact hcat

/-! ## Interests -/

/-- Whoever took the changes that were noted, starting from what was known, knows what the lanes
wait for. -/
def Tells (known : Interest → Bool) (s : Stage) : Prop :=
  InterestChange.Leads known s.interests.changes s.interests.covers

namespace Tells

variable {known : Interest → Bool}

theorem of_same (h : s.Tells known) (hi : s'.interests = s.interests) : s'.Tells known := by
  unfold Tells
  rw [hi]
  exact h

theorem resolve (h : s.Tells known) (key : SlotKey) (source : Source) :
    (s.resolve key source).2.Tells known := by
  obtain ⟨_, _, _, _, _, -, -, -, he⟩ := s.resolve_cases key source
  exact h.of_same (by rw [he])

theorem retire (h : s.Tells known) (key : SlotKey) : (s.retire key).Tells known := by
  unfold Stage.retire
  split <;> exact h

theorem move (h : s.Tells known) (hm : s.Move lane s') : s'.Tells known := by
  cases hm with
  | resolve key source _ => exact h.resolve key source
  | retire key _ => exact h.retire key
  | retireLane => exact Interests.replace_leads h lane .empty
  | await wanted => exact Interests.replace_leads h lane wanted
  | emit event payload =>
    unfold emitOnRoot
    split <;> exact h
  | read hr =>
    obtain ⟨scopes, _, rfl⟩ := read_ok hr
    exact h
  | write | output | reset | record => exact h

theorem moves (h : s.Tells known) (hm : s.Moves lane s') : s'.Tells known :=
  hm.preserves (fun _ _ hm h => h.move hm) h

theorem retireAll (h : s.Tells known) : s.retireAll.Tells known := Interests.clearAll_leads h

end Tells

end Stage

end Conductor
