import Conductor.Proofs.Slots.Operations

/-!
A filled slot is stable. Until it is retired, by its key or with its lane, resolving it gives the
task that it was filled with and changes nothing, whatever happens to other slots, to the plan and
to the variables in between.
-/

namespace Conductor

namespace Slots

variable {s s' : Slots} {key other : SlotKey} {slot : Slot}

theorem slot?_keeping {keep : SlotKey → Bool} (h : keep key = true) :
    (s.keeping keep).slot? key = s.slot? key := by
  unfold slot? keeping
  rw [List.find?_filter]
  congr 1
  funext c
  by_cases hkey : c.key = key
  · simp [hkey, h]
  · simp [hkey]

/-- Slots that are filled later come after those that are filled already. -/
theorem slot?_fill (h : s.slot? key = some slot) (handle : Handle) :
    (s.fill other handle).slot? key = some slot := by
  rw [slot?, fill, List.find?_append]
  exact Option.or_eq_some_iff.mpr (.inl h)

theorem slot?_fill_self (h : s.slot? key = none) (handle : Handle) :
    (s.fill key handle).slot? key = some ⟨key, handle, key.role s.rolePrefix⟩ := by
  have hfind : s.live.find? (fun c => c.key == key) = none := h
  rw [slot?, fill, List.find?_append, hfind]
  simp

/-- A filled slot keeps its task, and nothing else changes. -/
theorem resolve_filled (h : s.slot? key = some slot) (catalog : Catalog) (source : Source)
    (scopes : Scopes) (p : Plan) :
    s.resolve catalog key source scopes p = (.ok slot.handle, s, scopes, p) := by
  rw [resolve, h]

/-- What was resolved is found in its slot. -/
theorem slot?_of_resolve {catalog : Catalog} {source : Source} {scopes scopes' : Scopes}
    {p q : Plan} {handle : Handle}
    (h : s.resolve catalog key source scopes p = (.ok handle, s', scopes', q)) :
    ∃ slot, s'.slot? key = some slot ∧ slot.handle = handle := by
  rcases resolve_ok h with ⟨slot, hslot, hhandle, rfl⟩ | ⟨hnone, rfl⟩
  · exact ⟨slot, hslot, hhandle⟩
  · exact ⟨_, slot?_fill_self hnone handle, rfl⟩

namespace Site

variable {x : Site}

theorem perform_slot? (h : x.slots.Keyed) {o : Operation} (ho : o.retires key = false)
    (hslot : x.slots.slot? key = some slot) : (x.perform o).slots.slot? key = some slot := by
  rcases perform_slots h o with hs | ⟨_, other, _, handle, _, _, hs⟩
  · rw [hs, slot?_keeping (by simp [ho])]
    exact hslot
  · rw [hs]
    exact slot?_fill hslot handle

theorem run_slot? (h : x.slots.Keyed) {operations : List Operation}
    (ho : ∀ o ∈ operations, o.retires key = false) (hslot : x.slots.slot? key = some slot) :
    (x.run operations).slots.slot? key = some slot := by
  induction operations generalizing x with
  | nil => exact hslot
  | cons o rest ih =>
    have hrest : ∀ o' ∈ rest, o'.retires key = false :=
      fun o' hmem => ho o' (List.mem_cons_of_mem o hmem)
    exact ih (perform_keyed h o) hrest (perform_slot? h (ho o List.mem_cons_self) hslot)

/-! ## How many slots were filled -/

/-- How many slots are filled after an operation whose keys were free before. -/
def fills (x : Site) (o : Operation) : Nat :=
  (x.perform o).slots.live.countP fun c => !x.slots.isLive c.key

/-- How many slots operations in turn have filled. -/
def created (x : Site) : List Operation → Nat
  | [] => 0
  | o :: rest => x.fills o + (x.perform o).created rest

theorem not_free_of_mem {s : Slots} (h : slot ∈ s.live) : (!s.isLive slot.key) = false := by
  have hfound : (s.slot? slot.key).isSome = true :=
    List.find?_isSome.mpr ⟨slot, h, by simp⟩
  rw [isLive, hfound]
  rfl

theorem resolutions_perform (h : x.slots.Keyed) (o : Operation) :
    (x.perform o).slots.resolutions = x.slots.resolutions + x.fills o := by
  -- The slots that stay are not counted, since they were filled before.
  have hstays : ∀ live : List Slot, live ⊆ x.slots.live →
      live.countP (fun c => !x.slots.isLive c.key) = 0 := by
    intro live hlive
    refine List.countP_eq_zero.mpr fun c hc => ?_
    rw [not_free_of_mem (hlive hc)]
    exact Bool.false_ne_true
  rcases perform_slots h o with hs | ⟨_, key, _, handle, _, hnone, hs⟩
  · rw [fills, hs]
    have hzero := hstays (x.slots.keeping fun k => !o.retires k).live (List.filter_subset_self _)
    rw [hzero]
    rfl
  · have hfree : x.slots.isLive key = false := by
      rw [isLive, hnone]
      rfl
    rw [fills, hs]
    simp only [fill, List.countP_append, hstays x.slots.live (List.Subset.refl _)]
    simp [resolutions, hfree]

theorem resolutions_run (h : x.slots.Keyed) (operations : List Operation) :
    (x.run operations).slots.resolutions = x.slots.resolutions + x.created operations := by
  induction operations generalizing x with
  | nil => rfl
  | cons o rest ih =>
    rw [run_cons, ih (perform_keyed h o), resolutions_perform h o, created, Nat.add_assoc]

end Site

/-- Whatever has happened to slots since there were none, no two of them have the same key, and as
many were resolved as were ever filled. A slot that is resolved now keeps its task until something
retires it: to resolve it again, from whatever source, gives that task and changes nothing. -/
theorem filled_slot_stays {root : Handle} {rolePrefix : String} {scopes : Scopes} {p : Plan}
    (history : List Operation) :
    let start : Site := ⟨.new root rolePrefix, scopes, p⟩
    let x := start.run history
    (x.slots.live.map Slot.key).Nodup ∧
    x.slots.resolutions = start.created history ∧
    ∀ (catalog : Catalog) (key : SlotKey) (source : Source) (handle : Handle) (y : Site),
      x.slots.resolve catalog key source x.scopes x.plan =
        (.ok handle, y.slots, y.scopes, y.plan) →
      ∀ later : List Operation, (∀ o ∈ later, o.retires key = false) →
        let z := y.run later
        ∀ (catalog' : Catalog) (source' : Source),
          z.slots.resolve catalog' key source' z.scopes z.plan =
            (.ok handle, z.slots, z.scopes, z.plan) := by
  intro start x
  have hkeyed : x.slots.Keyed := Site.run_keyed (keyed_new root rolePrefix) history
  refine ⟨hkeyed, ?_, ?_⟩
  · have hcount := Site.resolutions_run (x := start) (keyed_new root rolePrefix) history
    rw [hcount]
    exact Nat.zero_add _
  · intro catalog key source handle y hy later hlater z catalog' source'
    obtain ⟨slot, hslot, rfl⟩ := slot?_of_resolve hy
    have hy' : x.perform (.resolve catalog key source) = y := by
      simp only [Site.perform, hy]
    have hz : z.slots.slot? key = some slot :=
      Site.run_slot? (hy' ▸ Site.perform_keyed hkeyed _) hlater hslot
    exact resolve_filled hz catalog' source' z.scopes z.plan

theorem filled_slot_stays_walking :
    let x := Site.sample.perform .walk
    let later : List Operation :=
      [.resolve Session.sample.core.catalog watch (.builder "worker" .empty),
        .resolve .empty walk (.held "nothing"), .retire watch, .retireLane .handler]
    let y := x.run later
    (∀ o ∈ later, o.retires walk = false) ∧ y.slots.resolutions = 2 ∧
      y.slots.resolve .empty walk (.held "nothing") y.scopes y.plan =
        (.ok ⟨⟨"task-2"⟩, "Worker"⟩, y.slots, y.scopes, y.plan) := by
  intro x later y
  have hlater : ∀ o ∈ later, o.retires walk = false := by
    intro o ho
    simp only [later, List.mem_cons, List.not_mem_nil, or_false] at ho
    rcases ho with rfl | rfl | rfl | rfl <;> rfl
  obtain ⟨_, _, hstays⟩ := @filled_slot_stays .sample "coordination" .base .sample []
  have hwalk : Site.sample.slots.resolve Session.sample.core.catalog walk (.builder "worker" .empty)
      Site.sample.scopes Site.sample.plan =
        (.ok ⟨⟨"task-2"⟩, "Worker"⟩, x.slots, x.scopes, x.plan) := by decide
  exact ⟨hlater, by decide, hstays _ walk _ _ x hwalk later hlater _ _⟩

end Slots

end Conductor
