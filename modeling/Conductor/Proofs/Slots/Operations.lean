import Conductor.Proofs.Session.Calls
import Conductor.Proofs.Slots.Lanes
import Mathlib.Data.List.Nodup

/-!
Everything that may happen to slots, in any order: they are filled and emptied, while the plan goes
on and variables change. Whatever happens, the filled slots have different keys, and so an operation
either fills one slot that was empty or leaves exactly those slots filled that it does not retire.
-/

namespace Conductor

/-- What a command makes of a plan. One that is refused changes nothing. -/
def Plan.driven (p : Plan) (command : Ground.Command) : Plan :=
  match (⟨p, []⟩ : Ground).perform command with
  | .ok (_, g) => g.plan
  | .error _ => p

namespace Slots

/-- Slots with the scopes that they read and the plan that they act on. -/
structure Site where
  slots : Slots
  scopes : Scopes
  plan : Plan

inductive Operation where
  | resolve (catalog : Catalog) (key : SlotKey) (source : Source)
  | retire (key : SlotKey)
  | retireLane (lane : Lane)
  | retireAll
  /-- The plan is acted on, by whomever. -/
  | drive (command : Ground.Command)
  /-- The variables change. -/
  | rebind (scopes : Scopes)

/-- Whether an operation empties the slot with the given key. -/
def Operation.retires (key : SlotKey) : Operation → Bool
  | retire other => key == other
  | retireLane lane => key.lane == lane
  | retireAll => true
  | resolve .. | drive _ | rebind _ => false

namespace Site

def perform (x : Site) : Operation → Site
  | .resolve catalog key source =>
    let (_, slots, scopes, plan) := x.slots.resolve catalog key source x.scopes x.plan
    ⟨slots, scopes, plan⟩
  | .retire key =>
    let (_, slots, plan) := x.slots.retire key x.plan
    { x with slots, plan }
  | .retireLane lane =>
    let (_, slots, plan) := x.slots.retireLane lane x.plan
    { x with slots, plan }
  | .retireAll =>
    let (_, slots, plan) := x.slots.retireAll x.plan
    { x with slots, plan }
  | .drive command => { x with plan := x.plan.driven command }
  | .rebind scopes => { x with scopes }

/-- The site after operations in turn. -/
def run (x : Site) (operations : List Operation) : Site := operations.foldl perform x

theorem run_cons (x : Site) (o : Operation) (rest : List Operation) :
    x.run (o :: rest) = (x.perform o).run rest := rfl

end Site

/-! ## Keys -/

/-- No two filled slots have the same key. -/
def Keyed (s : Slots) : Prop := (s.live.map Slot.key).Nodup

/-- The slots of which only those with certain keys are left. -/
def keeping (s : Slots) (keep : SlotKey → Bool) : Slots :=
  { s with live := s.live.filter fun c => keep c.key }

variable {s s' : Slots} {key : SlotKey}

theorem slot?_eq_none : s.slot? key = none ↔ key ∉ s.live.map Slot.key := by
  simp [slot?]

theorem Keyed.keeping (h : s.Keyed) (keep : SlotKey → Bool) : (s.keeping keep).Keyed :=
  h.sublist (List.filter_sublist.map Slot.key)

theorem Keyed.fill (h : s.Keyed) (hkey : s.slot? key = none) (handle : Handle) :
    (s.fill key handle).Keyed := by
  rw [Keyed, Slots.fill, List.map_append, List.nodup_append]
  refine ⟨h, List.nodup_singleton key, ?_⟩
  rintro k hk _ hk' rfl
  obtain rfl := List.mem_singleton.mp hk'
  exact slot?_eq_none.mp hkey hk

theorem keyed_new (root : Handle) (rolePrefix : String) : (new root rolePrefix).Keyed :=
  .nil

/-! ## What an operation does to the slots -/

section Resolving

variable {catalog : Catalog} {source : Source} {scopes scopes' : Scopes} {p q : Plan}

/-- A resolution that comes to a task finds it in the slot or fills the slot with it. -/
theorem resolve_ok {handle : Handle}
    (h : s.resolve catalog key source scopes p = (.ok handle, s', scopes', q)) :
    (∃ slot, s.slot? key = some slot ∧ slot.handle = handle ∧ s' = s) ∨
      s.slot? key = none ∧ s' = s.fill key handle := by
  unfold resolve at h
  split at h
  · rename_i slot hslot
    cases h
    exact .inl ⟨slot, hslot, rfl, rfl⟩
  rename_i hnone
  split at h
  · cases h
  split at h
  · cases h
  · cases h
    exact .inr ⟨hnone, rfl⟩

/-- How a resolution fails: no task is obtained, or the one that is cannot be attached. -/
theorem resolve_error {e : Error}
    (h : s.resolve catalog key source scopes p = (.error e, s', scopes', q)) :
    s' = s ∧ (produce catalog s.root.id source scopes p = (.error e, scopes', q) ∨
      ∃ handle refusal, produce catalog s.root.id source scopes p = (.ok handle, scopes', q) ∧
        q.attach s.root.id handle (key.role s.rolePrefix) = .error refusal ∧
        e = .provider refusal) := by
  unfold resolve at h
  split at h
  · cases h
  split at h
  · rename_i hp
    cases h
    exact ⟨rfl, .inl hp⟩
  rename_i hp
  split at h
  · rename_i ha
    cases h
    exact ⟨rfl, .inr ⟨_, _, hp, ha, rfl⟩⟩
  · cases h

end Resolving

/-- A slot is filled only if it was empty, and nothing changes otherwise. -/
theorem resolve_slots (s : Slots) (catalog : Catalog) (key : SlotKey) (source : Source)
    (scopes : Scopes) (p : Plan) :
    (s.resolve catalog key source scopes p).2.1 = s ∨
      s.slot? key = none ∧
        ∃ handle, (s.resolve catalog key source scopes p).2.1 = s.fill key handle := by
  cases hresult : (s.resolve catalog key source scopes p).1 with
  | error e => exact .inl (resolve_error (Prod.ext hresult rfl)).1
  | ok handle =>
    rcases resolve_ok (Prod.ext hresult rfl) with ⟨_, _, _, hs⟩ | ⟨hnone, hs⟩
    · exact .inl hs
    · exact .inr ⟨hnone, handle, hs⟩

theorem retire_slots (h : s.Keyed) (key : SlotKey) (p : Plan) :
    (s.retire key p).2.1 = s.keeping fun k => !(k == key) := by
  unfold retire keeping
  split
  · rename_i hnone
    have hall : s.live.filter (fun c => !(c.key == key)) = s.live :=
      List.filter_eq_self.mpr fun c hc => by simpa using List.find?_eq_none.mp hnone c hc
    rw [hall]
  · rename_i slot hslot
    obtain ⟨hkey, l₁, l₂, hlive, herase⟩ := slot?_split hslot
    rw [Keyed, hlive, List.map_append, List.map_cons, List.nodup_middle, List.nodup_cons] at h
    have hothers : ∀ c ∈ l₁ ++ l₂, (!(c.key == key)) = true := by
      intro c hc
      have hne : c.key ≠ slot.key := by
        intro he
        refine h.1 ?_
        rw [← List.map_append, ← he]
        exact List.mem_map_of_mem hc
      simpa [hkey] using hne
    have hkept : s.live.filter (fun c => !(c.key == key)) = l₁ ++ l₂ := by
      rw [hlive, List.filter_append, List.filter_cons_of_neg (by simp [hkey]), ← List.filter_append]
      exact List.filter_eq_self.mpr hothers
    simp only [herase, hkept]

theorem retireLane_slots (s : Slots) (lane : Lane) (p : Plan) :
    (s.retireLane lane p).2.1 = s.keeping fun k => !(k.lane == lane) := by
  have hothers : ∀ c ∈ (s.retireLane lane p).2.1.live, (!(c.key.lane == lane)) = true := by
    intro c hc
    simpa using ((mem_retireLane s lane p c).mp hc).2
  have hkept : (s.retireLane lane p).2.1.live.filter (fun c => !(c.key.lane == lane)) =
      s.live.filter fun c => !(c.key.lane == lane) := by
    rw [retireLane]
    refine filter_releaseAll (fun c hc => ?_) s p
    have hlane := (List.mem_filter.mp (List.mem_reverse.mp hc)).2
    rw [hlane]
    rfl
  have hlive : (s.retireLane lane p).2.1.live = s.live.filter fun c => !(c.key.lane == lane) :=
    (List.filter_eq_self.mpr hothers).symm.trans hkept
  rw [keeping, ← hlive]
  exact releaseAll_eq ..

theorem retireAll_slots (s : Slots) (p : Plan) :
    (s.retireAll p).2.1 = s.keeping fun _ => false := by
  have hlive := retireAll_live s p
  simp only [retireAll, retireLane_slots, keeping] at hlive ⊢
  rw [hlive, List.filter_eq_nil_iff.mpr (by simp)]

namespace Site

variable {x : Site}

/-- An operation fills a slot that was empty, or it leaves those filled that it does not retire. -/
theorem perform_slots (h : x.slots.Keyed) (o : Operation) :
    (x.perform o).slots = x.slots.keeping (fun k => !o.retires k) ∨
      ∃ catalog key source handle, o = .resolve catalog key source ∧ x.slots.slot? key = none ∧
        (x.perform o).slots = x.slots.fill key handle := by
  have hkept : x.slots = x.slots.keeping fun _ => true := by
    rw [keeping, List.filter_eq_self.mpr fun _ _ => rfl]
  cases o with
  | resolve catalog key source =>
    rcases resolve_slots x.slots catalog key source x.scopes x.plan with hsame | ⟨hnone, handle, hs⟩
    · exact .inl (hsame.trans hkept)
    · exact .inr ⟨catalog, key, source, handle, rfl, hnone, hs⟩
  | retire key => exact .inl (retire_slots h key x.plan)
  | retireLane lane => exact .inl (retireLane_slots x.slots lane x.plan)
  | retireAll => exact .inl (retireAll_slots x.slots x.plan)
  | drive | rebind => exact .inl hkept

theorem perform_keyed (h : x.slots.Keyed) (o : Operation) : (x.perform o).slots.Keyed := by
  rcases perform_slots h o with hs | ⟨_, _, _, handle, _, hnone, hs⟩
  · rw [hs]
    exact h.keeping _
  · rw [hs]
    exact h.fill hnone handle

theorem run_keyed (h : x.slots.Keyed) (operations : List Operation) :
    (x.run operations).slots.Keyed := by
  induction operations generalizing x with
  | nil => exact h
  | cons o rest ih => exact ih (perform_keyed h o)

end Site

/-! ## A sample -/

/-- A step of a model that does a task of its own. -/
def walk : SlotKey := ⟨.model, "walk", 1⟩

/-- A step of a handler. -/
def watch : SlotKey := ⟨.handler, "watch", 1⟩

def Operation.walk : Operation :=
  .resolve Session.sample.core.catalog Slots.walk (.builder "worker" .empty)

def Site.sample : Site := ⟨.new .sample "coordination", .base, .sample⟩

end Slots

end Conductor
