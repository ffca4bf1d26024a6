import Conductor.Proofs.Plan.Sparing
import Conductor.Proofs.Slots.Roles
import Conductor.Proofs.Stage.Kept

/-!
Sparing the other lane. Whatever an engine does, the slots of the other lane hold what they held,
and their tasks are neither stopped nor detached, not even where the engine has put the same task
into a slot of its own.
-/

namespace Conductor

namespace Slots

variable {catalog : Catalog} {parent : TaskId} {a : Plan.Attachment} {s s' : Slots} {p q : Plan}

theorem produce_spared {root : TaskId} {source : Source} {scopes scopes' : Scopes}
    {result : Except Error Handle}
    (h : produce catalog root source scopes p = (result, scopes', q)) :
    Plan.Spared catalog parent a p q := by
  obtain rfl | ⟨d, task, hi⟩ | ⟨name, build, arguments, hb, rfl⟩ := produce_plan h
  · exact .refl
  · exact .instantiate hi
  · exact .build arguments .refl hb

theorem resolve_spared {key : SlotKey} {source : Source} {scopes scopes' : Scopes}
    {result : Except Error Handle}
    (h : s.resolve catalog key source scopes p = (result, s', scopes', q)) :
    Plan.Spared catalog parent a p q := by
  obtain ⟨-, -, rfl⟩ | ⟨_, r, hproduce, hfilled⟩ := resolve_cases h
  · exact .refl
  have hproduced : Plan.Spared catalog parent a p r := produce_spared hproduce
  obtain ⟨-, rfl⟩ | ⟨_, ha, -⟩ := hfilled
  · exact hproduced
  · exact hproduced.trans (.of_grant (.attach ..) trivial ha)

/-- Emptying a slot leaves the task of another one alone, which is attached in another role. The two
may well hold the same task. -/
theorem release_spared {slot other : Slot} (hlive : other ∈ s.live) (hrole : other.role ≠ slot.role)
    (p : Plan) : Plan.Spared catalog s.root.id other.attachment p (s.release slot p) := by
  have hdetach : (Plan.Request.detach s.root.id slot.handle slot.role).Spares s.root.id
      other.attachment := by
    rintro ⟨_, ho⟩
    exact hrole ((Plan.isOf_iff ..).mp ho).2
  unfold release
  extract_lets stopped
  have hstopped : Plan.Spared catalog s.root.id other.attachment p stopped := by
    unfold stopped
    split
    · exact .refl
    · rename_i hkept
      -- The other slot would have kept the task from being stopped.
      refine .granted (.stop slot.handle.id) fun he => hkept ?_
      have hchild : s.isChild slot.handle.id = true :=
        List.any_eq_true.mpr ⟨other, hlive, by simpa [Slot.attachment] using he.symm⟩
      rw [hchild, Bool.true_or]
  exact hstopped.trans (.granted _ hdetach)

theorem Roled.role_ne {slot other : Slot} (h : s.Roled) (hs : slot ∈ s.live) (ho : other ∈ s.live)
    (hl : other.key.lane ≠ slot.key.lane) : other.role ≠ slot.role := by
  rw [h slot hs, h other ho]
  exact SlotKey.role_ne hl _

theorem retire_spared {key : SlotKey} {other : Slot} (hs : s.Roled) (ho : other ∈ s.live)
    (hl : other.key.lane ≠ key.lane) (p : Plan) :
    Plan.Spared catalog s.root.id other.attachment p (s.retire key p).2.2 := by
  unfold retire
  split
  · exact .refl
  · rename_i slot hslot
    have hmem := List.mem_of_find?_eq_some hslot
    obtain ⟨hkey, _⟩ := slot?_split hslot
    rw [← hkey] at hl
    have hne : ¬ (other.key == key) = true := by
      rw [← hkey]
      intro he
      exact hl (congrArg SlotKey.lane (by simpa using he))
    have hkept : other ∈ ({ s with live := s.live.eraseP fun c => c.key == key } : Slots).live := by
      refine (List.mem_eraseP_of_neg ?_).mpr ho
      exact hne
    exact release_spared hkept (hs.role_ne hmem ho hl) p

theorem releaseAll_spared {slots : List Slot} {other : Slot} (ho : other ∈ s.live)
    (hrole : ∀ slot ∈ slots, other.role ≠ slot.role) (p : Plan) :
    Plan.Spared catalog s.root.id other.attachment p (s.releaseAll slots p).2.2 := by
  induction slots generalizing s p with
  | nil => exact .refl
  | cons slot rest ih =>
    have hne : other ≠ slot := by
      rintro rfl
      exact hrole other List.mem_cons_self rfl
    have hkept : other ∈ ({ s with live := s.live.erase slot } : Slots).live :=
      (List.mem_erase_of_ne hne).mpr ho
    have hslot : Plan.Spared catalog s.root.id other.attachment p _ :=
      release_spared hkept (hrole slot List.mem_cons_self) p
    exact hslot.trans (ih hkept (fun c hc => hrole c (List.mem_cons_of_mem _ hc)) _)

theorem retireLane_spared {lane : Lane} {other : Slot} (hs : s.Roled) (ho : other ∈ s.live)
    (hl : other.key.lane ≠ lane) (p : Plan) :
    Plan.Spared catalog s.root.id other.attachment p (s.retireLane lane p).2.2 := by
  refine releaseAll_spared ho (fun slot hslot => ?_) p
  obtain ⟨hlive, hlane⟩ := List.mem_filter.mp (List.mem_reverse.mp hslot)
  have hlane' : slot.key.lane = lane := by simpa using hlane
  exact hs.role_ne hlive ho (hlane' ▸ hl)

end Slots

/-! ## Stages -/

namespace Stage

/-- What a lane holds stays, under the same root and in the same roles, and the plan was asked for
nothing that would stop or detach it. -/
structure Spares (lane : Lane) (s s' : Stage) : Prop where
  catalog : s'.catalog = s.catalog
  root : s'.slots.root = s.slots.root
  rolePrefix : s'.slots.rolePrefix = s.slots.rolePrefix
  holdings : s'.slots.holdings lane = s.slots.holdings lane
  plan : ∀ key handle, (key, handle) ∈ s.slots.holdings lane →
    Plan.Spared s.catalog s.slots.root.id ⟨handle, key.role s.slots.rolePrefix⟩ s.plan s'.plan

variable {lane other : Lane} {s s' s'' : Stage}

namespace Spares

theorem of_same (hc : s'.catalog = s.catalog) (hl : s'.slots = s.slots) (hp : s'.plan = s.plan) :
    s.Spares lane s' := by
  refine ⟨hc, by rw [hl], by rw [hl], by rw [hl], fun key handle _ => ?_⟩
  rw [hp]
  exact .refl

theorem refl (s : Stage) : s.Spares lane s := of_same rfl rfl rfl

theorem trans (h : s.Spares lane s') (h' : s'.Spares lane s'') : s.Spares lane s'' where
  catalog := h'.catalog.trans h.catalog
  root := h'.root.trans h.root
  rolePrefix := h'.rolePrefix.trans h.rolePrefix
  holdings := h'.holdings.trans h.holdings
  plan := by
    intro key handle hheld
    have hplan := h'.plan key handle (h.holdings ▸ hheld)
    rw [h.catalog, h.root, h.rolePrefix] at hplan
    exact (h.plan key handle hheld).trans hplan

end Spares

theorem resolve_spared {parent : TaskId} {a : Plan.Attachment} (key : SlotKey) (source : Source) :
    Plan.Spared s.catalog parent a s.plan (s.resolve key source).2.plan := by
  obtain ⟨_, _, _, _, _, hr, -, hstarted, he⟩ := s.resolve_cases key source
  have hresolved : Plan.Spared s.catalog parent a s.plan _ := Slots.resolve_spared hr
  rw [he]
  obtain rfl | ⟨_, -, hstart⟩ := hstarted
  · exact hresolved
  · exact hresolved.trans (.of_grant (.start _) trivial hstart)

theorem retire_plan (s : Stage) (key : SlotKey) :
    (s.retire key).plan = (s.slots.retire key s.plan).2.2 := by
  obtain ⟨_, he⟩ := s.retire_cases key
  rw [he]

/-- A move in one lane spares the other. -/
theorem Move.spares (h : s.Move lane s') (hs : s.slots.Roled) (ho : other ≠ lane) :
    s.Spares other s' := by
  have hkept := Kept.move h
  have hmoves : s.Moves lane s' := .single h
  refine ⟨hkept.catalog, hkept.root, hmoves.sameRoles.rolePrefix, h.holdings ho, ?_⟩
  intro key handle hheld
  obtain ⟨slot, hslot, he⟩ := List.mem_map.mp hheld
  obtain ⟨hlive, hlane⟩ := List.mem_filter.mp hslot
  obtain ⟨rfl, rfl⟩ := Prod.mk.inj he
  have hother : slot.key.lane = other := by simpa using hlane
  have hattached : (⟨slot.handle, slot.key.role s.slots.rolePrefix⟩ : Plan.Attachment) =
      slot.attachment := by
    rw [← hs slot hlive]
    rfl
  rw [hattached]
  rw [← hother] at ho
  cases h with
  | resolve key source _ => exact resolve_spared key source
  | retire key hkey =>
    rw [retire_plan]
    exact Slots.retire_spared hs hlive (hkey ▸ ho) s.plan
  | retireLane => exact Slots.retireLane_spared hs hlive ho s.plan
  | emit event payload =>
    unfold emitOnRoot
    split
    · exact .refl
    · rename_i he
      exact .of_grant (.emit ..) trivial he
  | read hr =>
    obtain ⟨scopes, _, rfl⟩ := read_ok hr
    exact .refl
  | write | output | reset | await | record => exact .refl

theorem Moves.spares (h : s.Moves lane s') (hs : s.slots.Roled) (ho : other ≠ lane) :
    s.Spares other s' := by
  induction h with
  | refl => exact .refl s
  | tail hm hstep ih => exact ih.trans (hstep.spares (Moves.roled hm hs) ho)

end Stage

end Conductor
