import Conductor.Proofs.Stage.Fittings
import Conductor.Proofs.Stage.Furnishing
import Conductor.Proofs.Stage.Kept
import Mathlib.Data.List.Forall2

/-!
Twins. Two stages that were the same but for their pasts go through the same, one with the activations
of a lane numbered one way and one with them numbered another way. They are twins then: they differ in
the numbers in the keys and the roles of slots, and nowhere else.

While the lane has no task they are even the same but for their pasts. While it has one, they are such
stages with a slot filled, under a key of its own in each. So it is enough to say what becomes of these
two forms.
-/

namespace Conductor

/-! ## Numbers -/

/-- The key without the number of the activation. -/
def SlotKey.unnumbered (key : SlotKey) : SlotKey := { key with activation := 0 }

/-- Roles that differ in the number of an activation at most. -/
inductive TwinRoles (rolePrefix : String) : String → String → Prop where
  | same (role : String) : TwinRoles rolePrefix role role
  | numbered {key key' : SlotKey} : key'.unnumbered = key.unnumbered →
    TwinRoles rolePrefix (key.role rolePrefix) (key'.role rolePrefix)

structure Slot.Twin (rolePrefix : String) (c c' : Slot) : Prop where
  key : c'.key.unnumbered = c.key.unnumbered
  handle : c'.handle = c.handle
  role : TwinRoles rolePrefix c.role c'.role

structure Plan.Attachment.Twin (rolePrefix : String) (a a' : Plan.Attachment) : Prop where
  child : a'.child = a.child
  role : TwinRoles rolePrefix a.role a'.role

inductive Trail.Record.Twin (rolePrefix : String) : Trail.Record → Trail.Record → Prop where
  | same (r : Trail.Record) : Twin rolePrefix r r
  | resolved (task : Handle) {role role' : String} : TwinRoles rolePrefix role role' →
    Twin rolePrefix (.resolved task role) (.resolved task role')

theorem Slot.Twin.refl (rolePrefix : String) (c : Slot) : c.Twin rolePrefix c :=
  ⟨rfl, rfl, .same _⟩

theorem Plan.Attachment.Twin.refl (rolePrefix : String) (a : Plan.Attachment) :
    a.Twin rolePrefix a :=
  ⟨rfl, .same _⟩

/-- Keys of a lane that differ in the number of the activation at most. -/
structure TwinKeys (lane : Lane) (key key' : SlotKey) : Prop where
  lane : key.lane = lane
  unnumbered : key'.unnumbered = key.unnumbered

theorem TwinKeys.lane' {lane : Lane} {key key' : SlotKey} (h : TwinKeys lane key key') :
    key'.lane = lane :=
  (congrArg SlotKey.lane h.unnumbered).trans h.lane

namespace Stage

/-! ## Pasts -/

/-- The stage with another past: other tasks that slots were ever filled with, and another trail. -/
def withPast (s : Stage) (filled : List Handle) (trail : Trail) : Stage :=
  { s with slots := { s.slots with filled }, trail }

/-- Stages that are the same but for their pasts. -/
def Peers (s s' : Stage) : Prop := ∃ filled trail, s' = s.withPast filled trail

/-- Since two other stages the pasts of two stages have grown by the same, but for numbers. -/
structure Grows (t t' s s' : Stage) : Prop where
  rolePrefix : s.slots.rolePrefix = t.slots.rolePrefix
  filled : ∃ made, s.slots.filled = made ++ t.slots.filled ∧ s'.slots.filled = made ++ t'.slots.filled
  trail : ∃ told told', List.Forall₂ (Trail.Record.Twin t.slots.rolePrefix) told told' ∧
    s.trail = t.trail.recordAll told ∧ s'.trail = t'.trail.recordAll told'

/-- Stages that differ in numbers only, in what was added to their pasts too. -/
structure Twins (t t' s s' : Stage) : Prop where
  past : Grows t t' s s'
  live : List.Forall₂ (Slot.Twin t.slots.rolePrefix) s.slots.live s'.slots.live
  children : ∀ parent, List.Forall₂ (Plan.Attachment.Twin t.slots.rolePrefix)
    (s.plan.childrenOf parent) (s'.plan.childrenOf parent)
  rest : s' = s.fitted s'.fittings

variable {lane : Lane} {t t' s s' : Stage} {key key' : SlotKey} {held : Option Handle} {α : Type}
  {op : Stage → α × Stage}

theorem Peers.refl (s : Stage) : s.Peers s := ⟨s.slots.filled, s.trail, rfl⟩

theorem Peers.symm (h : s.Peers s') : s'.Peers s := by
  obtain ⟨filled, trail, rfl⟩ := h
  exact ⟨s.slots.filled, s.trail, rfl⟩

theorem Peers.trans {u : Stage} (h : s.Peers s') (h' : s'.Peers u) : s.Peers u := by
  obtain ⟨filled, trail, rfl⟩ := h
  obtain ⟨filled, trail, rfl⟩ := h'
  exact ⟨filled, trail, rfl⟩

namespace Grows

theorem refl (t t' : Stage) : Grows t t' t t' :=
  ⟨rfl, ⟨[], rfl, rfl⟩, [], [], .nil, rfl, rfl⟩

/-- What leaves both pasts alone. -/
theorem of_same (h : Grows t t' s s') {u u' : Stage}
    (hspelling : u.slots.rolePrefix = s.slots.rolePrefix)
    (hfilled : u.slots.filled = s.slots.filled) (htrail : u.trail = s.trail)
    (hfilled' : u'.slots.filled = s'.slots.filled) (htrail' : u'.trail = s'.trail) :
    Grows t t' u u' where
  rolePrefix := hspelling.trans h.rolePrefix
  filled := by rw [hfilled, hfilled']; exact h.filled
  trail := by rw [htrail, htrail']; exact h.trail

theorem record (h : Grows t t' s s') {r r' : Trail.Record}
    (hr : r.Twin t.slots.rolePrefix r') : Grows t t' (s.recordTrail r) (s'.recordTrail r') where
  rolePrefix := h.rolePrefix
  filled := h.filled
  trail := by
    obtain ⟨told, told', htwins, htrail, htrail'⟩ := h.trail
    refine ⟨told ++ [r], told' ++ [r'], List.rel_append htwins (.cons hr .nil), ?_, ?_⟩
    · simp [recordTrail, htrail, Trail.recordAll]
    · simp [recordTrail, htrail', Trail.recordAll]

theorem fill (h : Grows t t' s s') (task : Handle) :
    Grows t t' { s with slots := { s.slots with filled := task :: s.slots.filled } }
      { s' with slots := { s'.slots with filled := task :: s'.slots.filled } } where
  rolePrefix := h.rolePrefix
  filled := by
    obtain ⟨made, hfilled, hfilled'⟩ := h.filled
    exact ⟨task :: made, congrArg _ hfilled, congrArg _ hfilled'⟩
  trail := h.trail

end Grows

/-! ## What has nothing to do with fittings -/

/-- What is done to a stage without a look at its fittings. -/
structure Apart (op : Stage → α × Stage) : Prop where
  fitted : ∀ s f, op (s.fitted f) = ((op s).1, (op s).2.fitted f)
  catalog : ∀ s, (op s).2.catalog = s.catalog
  root : ∀ s, (op s).2.slots.root = s.slots.root
  rolePrefix : ∀ s, (op s).2.slots.rolePrefix = s.slots.rolePrefix

namespace Apart

theorem of_moves (lane : Lane)
    (hfitted : ∀ s f, op (s.fitted f) = ((op s).1, (op s).2.fitted f))
    (hmoves : ∀ s : Stage, s.Moves lane (op s).2) : Apart op where
  fitted := hfitted
  catalog := fun s => (Kept.moves (hmoves s)).catalog
  root := fun s => (Kept.moves (hmoves s)).root
  rolePrefix := fun s => (hmoves s).sameRoles.rolePrefix

theorem fittings (h : Apart op) (s : Stage) : (op s).2.fittings = s.fittings :=
  congrArg (fun result : α × Stage => result.2.fittings) (h.fitted s s.fittings)

theorem withPast (h : Apart op) (s : Stage) (filled : List Handle) (trail : Trail) :
    op (s.withPast filled trail) = ((op s).1, (op s).2.withPast filled trail) := by
  have hfitted := h.fitted s { s.fittings with filled, trail }
  have hsame : (op s).2.withPast filled trail = (op s).2.fitted { s.fittings with filled, trail } := by
    rw [← h.fittings s]
    rfl
  rw [hsame]
  exact hfitted

theorem furnished (h : Apart op) (s : Stage) (key : SlotKey) (task : Handle) :
    op (s.furnished key task) = ((op s).1, (op s).2.furnished key task) := by
  obtain ⟨hlive, hfilled, hchildren, htrail⟩ := Fittings.mk.inj (h.fittings s)
  have hsame : ((op s).2.furnished key task).fittings = (s.furnished key task).fittings := by
    simp only [Stage.furnished, Stage.fittings, slotOf, Plan.adding, Plan.childrenOf, Stage.root,
      hlive, hfilled, hchildren, htrail, h.root s, h.rolePrefix s]
  calc op (s.furnished key task)
    _ = ((op s).1, (op s).2.fitted (s.furnished key task).fittings) :=
      h.fitted s (s.furnished key task).fittings
    _ = ((op s).1, (op s).2.furnished key task) := by rw [← hsame]; rfl

end Apart

/-! ## Side by side -/

/-- Two stages on which a lane has no task and that are the same but for their pasts, which have grown
by the same. -/
structure Abreast (lane : Lane) (t t' s s' : Stage) : Prop where
  bare : s.Bare lane
  discreet : s.catalog.Discreet s.root
  peers : s.Peers s'
  past : Grows t t' s s'

/-- Two such stages, with a slot of the lane filled where the lane has a task. -/
inductive Paired (lane : Lane) (t t' : Stage) (key key' : SlotKey) :
    Option Handle → Stage → Stage → Prop where
  | none {s s' : Stage} : Abreast lane t t' s s' → Paired lane t t' key key' none s s'
  | some {s s' : Stage} (task : Handle) : Abreast lane t t' s s' →
    Paired lane t t' key key' (some task) (s.furnished key task) (s'.furnished key' task)

namespace Abreast

theorem log (h : Abreast lane t t' s s') : s'.log = s.log := by
  obtain ⟨filled, trail, rfl⟩ := h.peers
  rfl

/-- Where nothing was done yet. -/
theorem of_peers (hbare : t.Bare lane) (hdiscreet : t.catalog.Discreet t.root) (h : t.Peers t') :
    Abreast lane t t' t t' :=
  ⟨hbare, hdiscreet, h, .refl t t'⟩

theorem bare' (h : Abreast lane t t' s s') : s'.Bare lane := by
  obtain ⟨filled, trail, rfl⟩ := h.peers
  exact h.bare.of_same rfl rfl rfl (List.Subset.refl _)

theorem discreet' (h : Abreast lane t t' s s') : s'.catalog.Discreet s'.root := by
  obtain ⟨filled, trail, rfl⟩ := h.peers
  exact h.discreet

/-- Each of the stages goes beside itself. -/
theorem left (h : Abreast lane t t' s s') : Abreast lane s s s s :=
  .of_peers h.bare h.discreet (.refl s)

theorem right (h : Abreast lane t t' s s') : Abreast lane s' s' s' s' :=
  .of_peers h.bare' h.discreet' (.refl s')

theorem record (h : Abreast lane t t' s s') (r : Trail.Record) :
    Abreast lane t t' (s.recordTrail r) (s'.recordTrail r) where
  bare := h.bare.of_same rfl rfl rfl (List.Subset.refl _)
  discreet := h.discreet
  peers := by
    obtain ⟨filled, trail, rfl⟩ := h.peers
    exact ⟨filled, trail.record r, rfl⟩
  past := h.past.record (.same r)

theorem clear (h : Abreast lane t t' s s') : Abreast lane t t'
    { s with interests := s.interests.clear lane }
    { s' with interests := s'.interests.clear lane } where
  bare := h.bare.of_same rfl rfl rfl (List.Subset.refl _)
  discreet := h.discreet
  peers := by
    obtain ⟨filled, trail, rfl⟩ := h.peers
    exact ⟨filled, trail, rfl⟩
  past := h.past.of_same rfl rfl rfl rfl rfl

theorem apart (h : Abreast lane t t' s s') (hop : Apart op) :
    (op s').1 = (op s).1 ∧ Abreast lane t t' (op s).2 (op s').2 := by
  obtain ⟨filled, trail, rfl⟩ := h.peers
  obtain ⟨hlive, hfilled, hchildren, htrail⟩ := Fittings.mk.inj (hop.fittings s)
  have hroot : (op s).2.root = s.root := congrArg Handle.id (hop.root s)
  rw [hop.withPast]
  refine ⟨rfl, ?_, ?_, ⟨filled, trail, rfl⟩, ?_⟩
  · refine h.bare.of_same hlive hroot (hop.rolePrefix s) ?_
    rw [Plan.childrenOf_congr hchildren]
    exact List.Subset.refl _
  · rw [hop.catalog, hroot]
    exact h.discreet
  · exact h.past.of_same (hop.rolePrefix s) hfilled htrail rfl rfl

theorem relinquish (h : Abreast lane t t' s s') (task : Handle) :
    Abreast lane t t' (s.relinquished task) (s'.relinquished task) where
  bare := h.bare.relinquished task
  discreet := h.discreet
  peers := by
    obtain ⟨filled, trail, rfl⟩ := h.peers
    exact ⟨filled, trail.record (.retired task), rfl⟩
  past := by
    have hpast : Grows t t' { s with plan := (s.stopping task).pruned s.root }
        { s' with plan := (s'.stopping task).pruned s'.root } :=
      h.past.of_same rfl rfl rfl rfl rfl
    exact hpast.record (.same _)

end Abreast

theorem Abreast.twins (h : Abreast lane t t' s s') : Twins t t' s s' := by
  have hpast := h.past
  obtain ⟨filled, trail, rfl⟩ := h.peers
  exact ⟨hpast, List.forall₂_same.mpr fun c _ => .refl _ c,
    fun parent => List.forall₂_same.mpr fun a _ => .refl _ a, rfl⟩

namespace Paired

theorem log (h : Paired lane t t' key key' held s s') : s'.log = s.log := by
  cases h with
  | none h => exact h.log
  | some task h => exact h.log

/-- What is done without a look at the fittings comes to the same on both stages. -/
theorem apart (h : Paired lane t t' key key' held s s') (hop : Apart op) :
    (op s').1 = (op s).1 ∧ Paired lane t t' key key' held (op s).2 (op s').2 := by
  cases h with
  | none h =>
    obtain ⟨hresult, habreast⟩ := h.apart hop
    exact ⟨hresult, .none habreast⟩
  | some task h =>
    obtain ⟨hresult, habreast⟩ := h.apart hop
    rw [hop.furnished, hop.furnished]
    exact ⟨hresult, .some task habreast⟩

/-- Once the lane has given its task up, the stages are abreast. -/
theorem retire (h : Paired lane t t' key key' held s s') (hkeys : TwinKeys lane key key') :
    Abreast lane t t' (s.retire key) (s'.retire key') := by
  have hlane : key'.lane = key.lane := hkeys.lane'.trans hkeys.lane.symm
  obtain ⟨rfl, -⟩ := hkeys
  cases h with
  | none h =>
    have hbare' : s'.Bare key'.lane := hlane ▸ h.bare'
    rw [h.bare.retire_self, hbare'.retire_self]
    exact h
  | @some b b' task h =>
    have hbare' : b'.Bare key'.lane := hlane ▸ h.bare'
    rw [h.bare.retire_furnished, hbare'.retire_furnished]
    exact h.relinquish task

theorem retireLane (h : Paired lane t t' key key' held s s') (hkeys : TwinKeys lane key key') :
    Abreast lane t t' (s.retireLane lane) (s'.retireLane lane) := by
  have hlane : key'.lane = key.lane := hkeys.lane'.trans hkeys.lane.symm
  obtain ⟨rfl, -⟩ := hkeys
  cases h with
  | none h =>
    rw [h.bare.retireLane_self, h.bare'.retireLane_self]
    exact h.clear
  | @some b b' task h =>
    have hbare' : b'.Bare key'.lane := hlane ▸ h.bare'
    have hemptied := hbare'.retireLane_furnished task
    rw [hlane] at hemptied
    rw [h.bare.retireLane_furnished, hemptied]
    exact (h.relinquish task).clear

/-- The stages differ in numbers only. -/
theorem twins (h : Paired lane t t' key key' held s s') (hkeys : TwinKeys lane key key') :
    Twins t t' s s' := by
  cases h with
  | none h => exact h.twins
  | @some b b' task h =>
    have hpast := h.past
    obtain ⟨filled, trail, rfl⟩ := h.peers
    have hroles : TwinRoles t.slots.rolePrefix (b.slotOf key task).role
        ((b.withPast filled trail).slotOf key' task).role := by
      rw [← hpast.rolePrefix]
      exact .numbered hkeys.unnumbered
    refine ⟨hpast.of_same rfl rfl rfl rfl rfl, ?_, fun parent => ?_, rfl⟩
    · exact List.rel_append (List.forall₂_same.mpr fun c _ => .refl _ c)
        (.cons ⟨hkeys.unnumbered, rfl, hroles⟩ .nil)
    · have hothers : ∀ attachments : List Plan.Attachment,
          List.Forall₂ (Plan.Attachment.Twin t.slots.rolePrefix) attachments attachments :=
        fun _ => List.forall₂_same.mpr fun a _ => .refl _ a
      simp only [furnished, Plan.childrenOf_adding]
      show List.Forall₂ _ _ (if parent = b.root then _ else _)
      by_cases hparent : parent = b.root
      · rw [if_pos hparent, if_pos hparent]
        exact List.rel_append (hothers _) (.cons ⟨rfl, hroles⟩ .nil)
      · rw [if_neg hparent, if_neg hparent]
        exact hothers _

end Paired

theorem procure_withPast (s : Stage) (filled : List Handle) (trail : Trail) (source : Source) :
    (s.withPast filled trail).procure source =
      ((s.procure source).1, (s.procure source).2.1, (s.procure source).2.2.withPast filled trail) := by
  have hproduce : Slots.produce (s.withPast filled trail).catalog (s.withPast filled trail).root source
      (s.withPast filled trail).scopes (s.withPast filled trail).plan =
        Slots.produce s.catalog s.root source s.scopes s.plan := rfl
  unfold procure
  rw [hproduce]
  rcases Slots.produce s.catalog s.root source s.scopes s.plan with ⟨result, scopes, plan⟩
  cases result with
  | error e => rfl
  | ok task =>
    have hroot : (s.withPast filled trail).root = s.root := rfl
    dsimp only
    rw [hroot]
    cases plan.accept s.root task with
    | error e => rfl
    | ok _ =>
      dsimp only
      split
      · cases plan.start task <;> rfl
      · rfl

/-- To obtain a task comes to the same on both stages. -/
theorem Abreast.procure (h : Abreast lane t t' s s') (source : Source) :
    (s'.procure source).1 = (s.procure source).1 ∧
      (s'.procure source).2.1 = (s.procure source).2.1 ∧
        Abreast lane t t' (s.procure source).2.2 (s'.procure source).2.2 := by
  obtain ⟨filled, trail, rfl⟩ := h.peers
  have hprocured := procure_procures h.discreet source
  have hroot : (s.procure source).2.2.root = s.root := by rw [root, hprocured.slots, root]
  rw [procure_withPast]
  refine ⟨rfl, rfl, h.bare.procure h.discreet source, ?_, ⟨filled, trail, rfl⟩, ?_⟩
  · rw [hprocured.catalog, hroot]
    exact h.discreet
  · exact h.past.of_same (by rw [hprocured.slots]) (by rw [hprocured.slots]) hprocured.trail rfl rfl

theorem Abreast.noting (h : Abreast lane t t' s s') (hkeys : TwinKeys lane key key')
    (task : Handle) : Abreast lane t t' (s.noting key task) (s'.noting key' task) := by
  have hroles : TwinRoles t.slots.rolePrefix (key.role s.slots.rolePrefix)
      (key'.role s.slots.rolePrefix) := by
    rw [← h.past.rolePrefix]
    exact .numbered hkeys.unnumbered
  have hpast := h.past
  obtain ⟨filled, trail, rfl⟩ := h.peers
  exact ⟨h.bare.of_same rfl rfl rfl (List.Subset.refl _), h.discreet, ⟨_, _, rfl⟩,
    (hpast.fill task).record (.resolved task hroles)⟩

/-- To take a task for a lane that is bare comes to the same on both stages. -/
theorem Abreast.resolve (h : Abreast lane t t' s s') (hkeys : TwinKeys lane key key')
    (source : Source) : (s'.resolve key' source).1 = (s.resolve key source).1 ∧
      ∃ held, Paired lane t t' key key' held (s.resolve key source).2 (s'.resolve key' source).2 ∧
        ∀ task, (s.resolve key source).1 = .ok task → held = some task := by
  have hbare : s.Bare key.lane := hkeys.lane ▸ h.bare
  have hbare' : s'.Bare key'.lane := hkeys.lane' ▸ h.bare'
  obtain ⟨hresult, hheld, habreast⟩ := h.procure source
  rw [hbare.resolve_eq h.discreet, hbare'.resolve_eq h.discreet']
  refine ⟨hresult, (s.procure source).2.1, ?_, fun task htask => procure_ok (Prod.ext htask rfl)⟩
  rcases hp : s.procure source with ⟨result, held, u⟩
  rcases hp' : s'.procure source with ⟨result', held', u'⟩
  rw [hp, hp'] at hheld habreast
  obtain rfl : held' = held := hheld
  cases held' with
  | none => exact .none habreast
  | some task => exact .some task (habreast.noting hkeys task)

end Stage

end Conductor
