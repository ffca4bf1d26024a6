import Conductor.Proofs.Slots.Tidy
import Conductor.Proofs.Stage.Moves

/-!
What moves keep. Slots stay in agreement with the plan, the log and the catalog stay as they are,
and nothing is recorded of a fault.
-/

namespace Conductor

namespace Trail

/-- The faults on record with what was recorded of them, the newest first. -/
def fates (t : Trail) : List (Fault × Disposition) :=
  t.newestFirst.filterMap fun
    | .fault f d _ => some (f, d)
    | _ => none

@[simp] theorem record_enabled (t : Trail) (r : Record) : (t.record r).enabled = t.enabled := by
  unfold record
  split <;> rfl

theorem fates_record_fault (t : Trail) (f : Fault) (d : Disposition) (response : Option String)
    (h : t.enabled = true) : (t.record (.fault f d response)).fates = (f, d) :: t.fates := by
  simp [record, h, fates]

theorem fates_record_of_ne {t : Trail} {r : Record}
    (h : ∀ f d response, r ≠ .fault f d response) : (t.record r).fates = t.fates := by
  unfold record
  split
  · unfold fates
    rw [List.filterMap_cons_none]
    split
    · rename_i f d response
      exact absurd rfl (h f d response)
    · rfl
  · rfl

/-- Nothing about faults was recorded between two trails. -/
def SameFates (t u : Trail) : Prop := u.enabled = t.enabled ∧ u.fates = t.fates

theorem SameFates.refl (t : Trail) : SameFates t t := ⟨rfl, rfl⟩

theorem SameFates.trans {t u v : Trail} (h : SameFates t u) (h' : SameFates u v) :
    SameFates t v :=
  ⟨h'.1.trans h.1, h'.2.trans h.2⟩

theorem sameFates_record {t : Trail} {r : Record}
    (h : ∀ f d response, r ≠ .fault f d response) : SameFates t (t.record r) :=
  ⟨record_enabled t r, fates_record_of_ne h⟩

theorem sameFates_retired (t : Trail) (handles : List Handle) :
    SameFates t (t.recordAll (handles.map .retired)) := by
  unfold recordAll
  induction handles generalizing t with
  | nil => exact .refl t
  | cons handle rest ih => exact (sameFates_record (by simp)).trans (ih _)

end Trail

namespace Stage

variable {lane : Lane} {s s' : Stage}

/-! ## Slots and plan -/

/-- The slots of a stage agree with its plan, and its catalog does nothing behind their back. -/
structure Tidy (root : TaskId) (s : Stage) : Prop where
  slots : s.slots.Tidy root s.plan
  catalog : s.catalog.Modest

namespace Tidy

variable {root : TaskId}

theorem resolve (h : s.Tidy root) (key : SlotKey) (source : Source) :
    (s.resolve key source).2.Tidy root := by
  obtain ⟨_, _, _, plan, started, hr, -, hstarted, he⟩ := s.resolve_cases key source
  have hslots := h.slots.resolve h.catalog hr
  rw [he]
  obtain rfl | ⟨_, -, hstart⟩ := hstarted
  · exact ⟨hslots, h.catalog⟩
  · obtain ⟨hl, hc⟩ := Plan.start_ok hstart
    exact ⟨hslots.later hl (Plan.childrenOf_congr hc root), h.catalog⟩

theorem retire (h : s.Tidy root) (key : SlotKey) : (s.retire key).Tidy root := by
  unfold Stage.retire
  split
  · rename_i hr
    exact ⟨h.slots.retire hr, h.catalog⟩
  · exact h

theorem retireLane (h : s.Tidy root) (lane : Lane) : (s.retireLane lane).Tidy root :=
  ⟨h.slots.retireLane rfl, h.catalog⟩

theorem retireAll (h : s.Tidy root) : s.retireAll.Tidy root :=
  ⟨h.slots.retireAll rfl, h.catalog⟩

theorem emit (h : s.Tidy root) (event : EventName) (payload : Option Value) :
    (s.emitOnRoot event payload).2.Tidy root := by
  unfold emitOnRoot
  split
  · exact h
  · rename_i he
    obtain ⟨hl, hc⟩ := Plan.emit_ok he
    exact ⟨h.slots.later hl (Plan.childrenOf_congr hc root), h.catalog⟩

theorem move (h : s.Tidy root) (hm : s.Move lane s') : s'.Tidy root := by
  cases hm with
  | resolve key source _ => exact h.resolve key source
  | retire key _ => exact h.retire key
  | retireLane => exact h.retireLane lane
  | emit event payload => exact h.emit event payload
  | read hr =>
    obtain ⟨scopes, _, rfl⟩ := read_ok hr
    exact ⟨h.slots, h.catalog⟩
  | write | output | reset | await | record => exact ⟨h.slots, h.catalog⟩

theorem moves (h : s.Tidy root) (hm : s.Moves lane s') : s'.Tidy root :=
  hm.preserves (fun _ _ hm h => h.move hm) h

end Tidy

theorem retireAll_live (s : Stage) : s.retireAll.slots.live = [] :=
  Slots.retireAll_live s.slots s.plan

/-! ## What stays as it is -/

/-- What a stage keeps through the moves of an engine. -/
structure Kept (s s' : Stage) : Prop where
  catalog : s'.catalog = s.catalog
  log : s'.log = s.log
  root : s'.slots.root = s.slots.root
  fates : s.trail.SameFates s'.trail

namespace Kept

theorem refl (s : Stage) : Kept s s := ⟨rfl, rfl, rfl, .refl _⟩

theorem trans {s t u : Stage} (h : Kept s t) (h' : Kept t u) : Kept s u where
  catalog := h'.catalog.trans h.catalog
  log := h'.log.trans h.log
  root := h'.root.trans h.root
  fates := h.fates.trans h'.fates

theorem recordTrail (s : Stage) {r : Trail.Record} (h : ∀ f d response, r ≠ .fault f d response) :
    Kept s (s.recordTrail r) :=
  ⟨rfl, rfl, rfl, Trail.sameFates_record h⟩

theorem resolve (s : Stage) (key : SlotKey) (source : Source) :
    Kept s (s.resolve key source).2 := by
  obtain ⟨result, _, _, _, _, hr, -, -, he⟩ := s.resolve_cases key source
  have htrail : s.trail.SameFates (s.trailOf key result) := by
    cases result with
    | error e => exact .refl _
    | ok handle =>
      rw [trailOf]
      split
      · exact .refl _
      · exact Trail.sameFates_record (by simp)
  rw [he]
  exact ⟨rfl, rfl, Slots.resolve_root hr, htrail⟩

theorem retire (s : Stage) (key : SlotKey) : Kept s (s.retire key) := by
  unfold Stage.retire
  split
  · rename_i hr
    exact ⟨rfl, rfl, Slots.retire_root hr, Trail.sameFates_record (by simp)⟩
  · exact .refl s

theorem retireLane (s : Stage) (lane : Lane) : Kept s (s.retireLane lane) :=
  ⟨rfl, rfl, Slots.retireLane_root .., Trail.sameFates_retired ..⟩

theorem retireAll (s : Stage) : Kept s s.retireAll :=
  ⟨rfl, rfl, Slots.retireAll_root .., Trail.sameFates_retired ..⟩

theorem move (hm : s.Move lane s') : Kept s s' := by
  cases hm with
  | resolve key source _ => exact resolve s key source
  | retire key _ => exact retire s key
  | retireLane => exact retireLane s lane
  | emit event payload =>
    unfold emitOnRoot
    split <;> exact ⟨rfl, rfl, rfl, .refl _⟩
  | read hr =>
    obtain ⟨scopes, _, rfl⟩ := read_ok hr
    exact ⟨rfl, rfl, rfl, .refl _⟩
  | record r hr =>
    refine recordTrail s ?_
    rintro f d response rfl
    cases hr
  | write | output | reset | await => exact ⟨rfl, rfl, rfl, .refl _⟩

theorem moves (hm : s.Moves lane s') : Kept s s' :=
  hm.preserves (P := Kept s) (fun _ _ hm h => h.trans (move hm)) (.refl s)

end Kept

end Stage

end Conductor
