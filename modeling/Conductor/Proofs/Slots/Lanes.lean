import Conductor.Proofs.Stage.Moves
import Conductor.Proofs.Slots.Tidy

/-!
The slots of a lane. Filling and emptying a slot changes what its own lane holds and leaves the
other lane alone, and so does every move of an engine.
-/

namespace Conductor

namespace Slots

/-- What the filled slots of a lane hold, in the order of filling. -/
def holdings (s : Slots) (lane : Lane) : List (SlotKey × Handle) :=
  (s.live.filter fun c => c.key.lane == lane).map fun c => (c.key, c.handle)

variable {s s' : Slots} {key : SlotKey} {lane : Lane} {p q : Plan}

theorem length_holdings (s : Slots) (lane : Lane) : (s.holdings lane).length = s.liveIn lane := by
  rw [holdings, List.length_map, liveIn, List.countP_eq_length_filter]

theorem mem_holdings {slot : Slot} (hs : slot ∈ s.live) (hl : slot.key.lane = lane) :
    (slot.key, slot.handle) ∈ s.holdings lane :=
  List.mem_map_of_mem (List.mem_filter.mpr ⟨hs, by simpa using hl⟩)

/-- A free lane has no slot that is filled. -/
theorem not_live_of_free (h : s.holdings key.lane = []) : s.isLive key = false := by
  cases hslot : s.slot? key with
  | none => simp [isLive, hslot]
  | some slot =>
    have hmem := List.mem_of_find?_eq_some hslot
    have hkey : slot.key = key := (slot?_split hslot).1
    have hheld := mem_holdings hmem (congrArg SlotKey.lane hkey)
    rw [h] at hheld
    cases hheld

/-- Every slot is in one of the two lanes. -/
theorem length_children (s : Slots) :
    s.children.length = s.liveIn .model + s.liveIn .handler := by
  have hother : ∀ c : Slot,
      (c.key.lane == Lane.handler) = decide ¬ (c.key.lane == Lane.model) = true := by
    intro c
    cases c.key.lane <;> rfl
  simp only [children, liveIn, List.length_map, hother]
  exact List.length_eq_countP_add_countP fun c : Slot => c.key.lane == Lane.model

/-! ## Filling -/

/-- The other lane stays as it is, and where the slot's own lane is free it holds the slot then. -/
theorem resolve_holdings (s : Slots) (catalog : Catalog) (key : SlotKey) (source : Source)
    (scopes : Scopes) (p : Plan) :
    (∀ other, other ≠ key.lane →
      (s.resolve catalog key source scopes p).2.1.holdings other = s.holdings other) ∧
    (s.holdings key.lane = [] → ∀ handle, (s.resolve catalog key source scopes p).1 = .ok handle →
      (s.resolve catalog key source scopes p).2.1.holdings key.lane = [(key, handle)]) := by
  unfold resolve
  split
  · rename_i slot hslot
    obtain ⟨hmem, hkey⟩ : slot ∈ s.live ∧ slot.key = key :=
      ⟨List.mem_of_find?_eq_some hslot, by simpa using List.find?_some hslot⟩
    refine ⟨fun _ _ => rfl, fun hfree => ?_⟩
    have hheld := mem_holdings hmem (congrArg SlotKey.lane hkey)
    rw [hfree] at hheld
    cases hheld
  split
  · exact ⟨fun _ _ => rfl, fun _ _ => nofun⟩
  split
  · exact ⟨fun _ _ => rfl, fun _ _ => nofun⟩
  · constructor
    · intro other hother
      simp [holdings, Ne.symm hother]
    · intro hfree handle hresult
      cases hresult
      have hnone : s.live.filter (fun c => c.key.lane == key.lane) = [] := by
        simpa [holdings] using hfree
      simp [holdings, hnone]

/-! ## Emptying -/

/-- The other lane stays as it is, and the slot's own lane is free then if it held nothing else. -/
theorem retire_holdings (s : Slots) (key : SlotKey) (p : Plan) :
    (∀ other, other ≠ key.lane → (s.retire key p).2.1.holdings other = s.holdings other) ∧
    ∀ held : Option Handle, s.holdings key.lane = (held.map (key, ·)).toList →
      (s.retire key p).2.1.holdings key.lane = [] := by
  unfold retire
  split
  · rename_i hnone
    refine ⟨fun _ _ => rfl, fun held hheld => ?_⟩
    cases held with
    | none => exact hheld
    | some handle =>
      -- The slot would have been found under its key.
      have hmem : (key, handle) ∈ s.holdings key.lane := by
        rw [hheld]
        exact List.mem_singleton.mpr rfl
      obtain ⟨slot, hslot, he⟩ := List.mem_map.mp hmem
      have hkey := List.find?_eq_none.mp hnone slot (List.mem_filter.mp hslot).1
      rw [Prod.mk.injEq] at he
      simp [he.1] at hkey
  · rename_i slot hslot
    obtain ⟨hkey, l₁, l₂, hlive, herase⟩ := slot?_split hslot
    constructor
    · intro other hother
      simp only [holdings, herase]
      simp [hlive, hkey, Ne.symm hother]
    · intro held hheld
      have hlength := congrArg List.length hheld
      have hmost : (held.map (key, ·)).toList.length ≤ 1 := by cases held <;> simp
      simp only [holdings, hlive, List.filter_append, List.filter_cons, hkey, beq_self_eq_true,
        if_true, List.map_append, List.map_cons, List.length_append, List.length_cons,
        List.length_map] at hlength
      simp only [holdings, herase]
      rw [← List.length_eq_zero_iff]
      simp only [List.filter_append, List.length_map, List.length_append]
      omega

theorem filter_releaseAll {test : Slot → Bool} {slots : List Slot}
    (ht : ∀ c ∈ slots, test c = false) (s : Slots) (p : Plan) :
    (s.releaseAll slots p).2.1.live.filter test = s.live.filter test := by
  induction slots generalizing s p with
  | nil => rfl
  | cons slot rest ih =>
    have hrest := ih (fun c hc => ht c (List.mem_cons_of_mem _ hc))
      { s with live := s.live.erase slot } (({ s with live := s.live.erase slot }).release slot p)
    have herase : (s.live.erase slot).filter test = s.live.filter test := by
      by_cases hmem : slot ∈ s.live
      · obtain ⟨l₁, l₂, _, hlive, herase⟩ := List.exists_erase_eq hmem
        rw [herase, hlive]
        simp [ht slot List.mem_cons_self]
      · rw [List.erase_of_not_mem hmem]
    exact hrest.trans herase

theorem retireLane_holdings (s : Slots) (lane : Lane) (p : Plan) :
    (s.retireLane lane p).2.1.holdings lane = [] ∧
      ∀ other, other ≠ lane → (s.retireLane lane p).2.1.holdings other = s.holdings other := by
  constructor
  · rw [holdings, List.map_eq_nil_iff, List.filter_eq_nil_iff]
    intro c hc
    simpa using ((mem_retireLane s lane p c).mp hc).2
  · intro other hother
    rw [holdings, holdings, retireLane, filter_releaseAll]
    intro c hc
    have hlane : c.key.lane = lane := by simpa using (List.mem_filter.mp (List.mem_reverse.mp hc)).2
    simpa [hlane] using Ne.symm hother

end Slots

namespace Stage

variable {lane : Lane} {s s' : Stage}

/-! ## Stages -/

theorem resolve_slots (s : Stage) (key : SlotKey) (source : Source) :
    (s.resolve key source).2.slots = (s.slots.resolve s.catalog key source s.scopes s.plan).2.1 := by
  obtain ⟨_, _, _, _, _, hr, -, -, he⟩ := s.resolve_cases key source
  rw [he, hr]

theorem retire_slots (s : Stage) (key : SlotKey) :
    (s.retire key).slots = (s.slots.retire key s.plan).2.1 := by
  obtain ⟨_, he⟩ := s.retire_cases key
  rw [he]

/-- A slot that a free lane fills is all that the lane holds then. -/
theorem resolve_holds {key : SlotKey} {source : Source} {handle : Handle}
    (h : s.resolve key source = (.ok handle, s')) (hfree : s.slots.holdings key.lane = []) :
    s'.slots.holdings key.lane = [(key, handle)] := by
  obtain ⟨result, _, _, _, _, hr, hresult, -, -⟩ := s.resolve_cases key source
  have hslots := s.resolve_slots key source
  rw [h] at hslots hresult
  rw [hslots]
  refine (Slots.resolve_holdings ..).2 hfree handle ?_
  rw [hr]
  exact hresult handle rfl

/-- Emptying the one slot that a lane may hold frees the lane. -/
theorem retire_holds {key : SlotKey} {held : Option Handle}
    (h : s.slots.holdings key.lane = (held.map (key, ·)).toList) :
    (s.retire key).slots.holdings key.lane = [] := by
  rw [retire_slots]
  exact (Slots.retire_holdings ..).2 held h

/-- An engine leaves the other lane alone. -/
theorem Move.holdings (h : s.Move lane s') {other : Lane} (ho : other ≠ lane) :
    s'.slots.holdings other = s.slots.holdings other := by
  cases h with
  | resolve key source hkey =>
    rw [resolve_slots]
    exact (Slots.resolve_holdings ..).1 other (hkey ▸ ho)
  | retire key hkey =>
    rw [retire_slots]
    exact (Slots.retire_holdings ..).1 other (hkey ▸ ho)
  | retireLane => exact (s.slots.retireLane_holdings lane s.plan).2 other ho
  | emit event payload =>
    unfold emitOnRoot
    split <;> rfl
  | read hr =>
    obtain ⟨scopes, _, rfl⟩ := read_ok hr
    rfl
  | write | output | reset | await | record => rfl

theorem Moves.holdings (h : s.Moves lane s') {other : Lane} (ho : other ≠ lane) :
    s'.slots.holdings other = s.slots.holdings other := by
  induction h with
  | refl => rfl
  | tail _ hm ih => exact (hm.holdings ho).trans ih

/-- What could be done in either lane changes the slots of neither. -/
theorem holdings_of_moves (h : ∀ lane, s.Moves lane s') (lane : Lane) :
    s'.slots.holdings lane = s.slots.holdings lane := by
  cases lane with
  | model => exact (h .handler).holdings (by simp)
  | handler => exact (h .model).holdings (by simp)

theorem holdings_of_calms (h : ∀ lane, s.Calms lane true s') (lane : Lane) :
    s'.slots.holdings lane = s.slots.holdings lane :=
  holdings_of_moves (fun lane => (h lane).moves) lane

end Stage

end Conductor
