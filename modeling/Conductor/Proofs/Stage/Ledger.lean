import Conductor.Proofs.Slots.Operations
import Conductor.Proofs.Stage.Kept
import Mathlib.Data.List.Perm.Subperm

/-!
The trail as a ledger. Whoever fills a slot puts the task on record as resolved, and whoever
empties one puts it on record as retired. So the records of a task that say the one exceed those
that say the other by the slots that hold it, and they never fall behind them.
-/

namespace Conductor

namespace Trail

/-- Whether a record says that a slot was filled with the task. -/
def Record.isResolved (task : TaskId) : Record → Bool
  | resolved handle _ => handle.id == task
  | _ => false

/-- Whether a record says that a slot with the task was emptied. -/
def Record.isRetired (task : TaskId) : Record → Bool
  | retired handle => handle.id == task
  | _ => false

/-- Whether a record is about filling or emptying a slot. -/
def Record.ofSlot : Record → Bool
  | resolved .. | retired .. => true
  | _ => false

/-- What is on record about a task, the newest first, adds up to the number of slots that hold it.
A slot is emptied only if there is one. -/
inductive Ledger (task : TaskId) : List Record → Nat → Prop where
  | nil : Ledger task [] 0
  | resolved {rs : List Record} {n : Nat} {r : Record} : r.isResolved task = true →
    Ledger task rs n → Ledger task (r :: rs) (n + 1)
  | retired {rs : List Record} {n : Nat} {r : Record} : r.isRetired task = true →
    Ledger task rs (n + 1) → Ledger task (r :: rs) n
  | other {rs : List Record} {n : Nat} {r : Record} : r.isResolved task = false →
    r.isRetired task = false → Ledger task rs n → Ledger task (r :: rs) n

namespace Ledger

variable {task : TaskId} {rs : List Record} {n : Nat}

theorem not_retired {r : Record} (h : r.isResolved task = true) : r.isRetired task = false := by
  cases r <;> first | rfl | cases h

theorem not_resolved {r : Record} (h : r.isRetired task = true) : r.isResolved task = false := by
  cases r <;> first | rfl | cases h

theorem count (h : Ledger task rs n) :
    rs.countP (Record.isResolved task) = rs.countP (Record.isRetired task) + n := by
  induction h with
  | nil => rfl
  | resolved hr _ ih =>
    rw [List.countP_cons, List.countP_cons, hr, not_retired hr, ih]
    simp [Nat.add_assoc]
  | retired hr _ ih =>
    rw [List.countP_cons, List.countP_cons, hr, not_resolved hr, ih]
    simp [Nat.add_assoc, Nat.add_comm]
  | other hres hret _ ih =>
    rw [List.countP_cons, List.countP_cons, hres, hret, ih]
    rfl

/-- What was on record earlier is a ledger too. -/
theorem earlier (h : Ledger task rs n) {older : List Record} (hs : older <:+ rs) :
    ∃ m, Ledger task older m := by
  induction h with
  | nil =>
    obtain rfl := List.suffix_nil.mp hs
    exact ⟨0, .nil⟩
  | resolved hr h ih =>
    rcases List.suffix_cons_iff.mp hs with rfl | hs
    · exact ⟨_, .resolved hr h⟩
    · exact ih hs
  | retired hr h ih =>
    rcases List.suffix_cons_iff.mp hs with rfl | hs
    · exact ⟨_, .retired hr h⟩
    · exact ih hs
  | other hres hret h ih =>
    rcases List.suffix_cons_iff.mp hs with rfl | hs
    · exact ⟨_, .other hres hret h⟩
    · exact ih hs

theorem resolve (h : Ledger task rs n) (handle : Handle) (role : String) :
    Ledger task (.resolved handle role :: rs) (n + if handle.id == task then 1 else 0) := by
  split
  · exact .resolved (by assumption) h
  · exact .other (Bool.not_eq_true _ ▸ by assumption) rfl h

theorem retire {handle : Handle} (h : Ledger task rs (n + if handle.id == task then 1 else 0)) :
    Ledger task (.retired handle :: rs) n := by
  split at h
  · exact .retired (by assumption) h
  · exact .other rfl (Bool.not_eq_true _ ▸ by assumption) h

theorem keep {r : Record} (hr : r.ofSlot = false) (h : Ledger task rs n) :
    Ledger task (r :: rs) n := by
  cases r with
  | resolved | retired => cases hr
  | _ => exact .other rfl rfl h

end Ledger

variable {t : Trail}

/-- The records of the trail balance what slots hold, if any are kept. -/
def Balances (t : Trail) (held : TaskId → Nat) : Prop :=
  t.enabled = true → ∀ task, Ledger task t.newestFirst (held task)

namespace Balances

variable {held held' : TaskId → Nat}

/-- One more record. -/
theorem step (h : t.Balances held) {r : Record}
    (hr : ∀ task rs, Ledger task rs (held task) → Ledger task (r :: rs) (held' task)) :
    (t.record r).Balances held' := by
  intro he task
  rw [record_enabled] at he
  rw [Trail.record, if_pos he]
  exact hr task _ (h he task)

theorem resolve (h : t.Balances held) {handle : Handle} (role : String)
    (hheld : ∀ task, held' task = held task + if handle.id == task then 1 else 0) :
    (t.record (.resolved handle role)).Balances held' := by
  refine h.step fun task rs hledger => ?_
  rw [hheld]
  exact hledger.resolve handle role

theorem retire (h : t.Balances held) {handle : Handle}
    (hheld : ∀ task, held task = held' task + if handle.id == task then 1 else 0) :
    (t.record (.retired handle)).Balances held' := by
  refine h.step fun task rs hledger => ?_
  rw [hheld] at hledger
  exact hledger.retire

theorem record (h : t.Balances held) {r : Record} (hr : r.ofSlot = false) :
    (t.record r).Balances held :=
  h.step fun _ _ hledger => hledger.keep hr

theorem retireAll {handles : List Handle} (h : t.Balances held)
    (hheld : ∀ task, held task = held' task + handles.countP fun handle => handle.id == task) :
    (t.recordAll (handles.map .retired)).Balances held' := by
  induction handles generalizing t held with
  | nil =>
    obtain rfl : held = held' := funext hheld
    exact h
  | cons handle rest ih =>
    have hrest : (t.record (.retired handle)).Balances fun task =>
        held' task + rest.countP fun handle => handle.id == task := by
      refine h.retire fun task => ?_
      rw [hheld, List.countP_cons, Nat.add_assoc]
    exact ih hrest fun _ => rfl

end Balances

end Trail

/-! ## Slots -/

namespace Slots

variable {s : Slots} {key : SlotKey} {p : Plan} {task : TaskId}

/-- How many slots hold a task. -/
def holders (s : Slots) (task : TaskId) : Nat := s.live.countP fun c => c.handle.id == task

theorem holders_fill (s : Slots) (key : SlotKey) (handle : Handle) (task : TaskId) :
    (s.fill key handle).holders task = s.holders task + if handle.id == task then 1 else 0 := by
  rw [holders, fill, List.countP_append, List.countP_singleton]
  rfl

theorem holders_retire {s' : Slots} {q : Plan} {handle : Handle}
    (h : s.retire key p = (some handle, s', q)) :
    s.holders task = s'.holders task + if handle.id == task then 1 else 0 := by
  unfold retire at h
  split at h
  · cases h
  · rename_i slot hslot
    cases h
    obtain ⟨_, l₁, l₂, hlive, herase⟩ := slot?_split hslot
    simp only [holders, herase]
    rw [hlive, List.countP_append, List.countP_append, List.countP_cons, Nat.add_assoc]

theorem holders_erase {slot : Slot} (h : slot ∈ s.live) (task : TaskId) :
    s.holders task = ({ s with live := s.live.erase slot } : Slots).holders task +
      if slot.handle.id == task then 1 else 0 := by
  rw [holders, (List.perm_cons_erase h).countP_eq, List.countP_cons]
  rfl

theorem holders_releaseAll {slots : List Slot} (h : slots.Subperm s.live) (task : TaskId) :
    s.holders task = (s.releaseAll slots p).2.1.holders task +
      (s.releaseAll slots p).1.countP fun handle => handle.id == task := by
  induction slots generalizing s p with
  | nil => rfl
  | cons slot rest ih =>
    have hrest : rest.Subperm (s.live.erase slot) := by
      have herased := h.erase slot
      rwa [List.erase_cons_head] at herased
    let left : Slots := { s with live := s.live.erase slot }
    have hleft := ih (s := left) (p := left.release slot p) hrest
    rw [holders_erase (h.subset List.mem_cons_self) task, hleft, Nat.add_assoc]
    exact congrArg _ List.countP_cons.symm

theorem holders_retireLane (s : Slots) (lane : Lane) (p : Plan) (task : TaskId) :
    s.holders task = (s.retireLane lane p).2.1.holders task +
      (s.retireLane lane p).1.countP fun handle => handle.id == task :=
  holders_releaseAll ((List.reverse_perm _).subperm.trans List.filter_sublist.subperm) task

theorem holders_retireAll (s : Slots) (p : Plan) (task : TaskId) :
    s.holders task = (s.retireAll p).2.1.holders task +
      (s.retireAll p).1.countP fun handle => handle.id == task := by
  have hhandlers := s.holders_retireLane .handler p task
  have hmodels := holders_retireLane (s.retireLane .handler p).2.1 .model
    (s.retireLane .handler p).2.2 task
  show s.holders task = _ + List.countP _ (_ ++ _)
  rw [hhandlers, hmodels, List.countP_append, Nat.add_assoc, Nat.add_comm (List.countP _ _)]
  rfl

end Slots

/-! ## Stages -/

/-- The trail balances what the slots hold. -/
def Core.Balanced (c : Core) : Prop := c.trail.Balances c.slots.holders

theorem Core.Balanced.record {c : Core} (h : c.Balanced) {r : Trail.Record}
    (hr : r.ofSlot = false) : Core.Balanced { c with trail := c.trail.record r } :=
  Trail.Balances.record h hr

namespace Stage

variable {lane : Lane} {s s' : Stage}

theorem resolve_balanced (h : s.Balanced) (key : SlotKey) (source : Source) :
    (s.resolve key source).2.Balanced := by
  obtain ⟨result, slots, _, _, _, hr, -, -, he⟩ := s.resolve_cases key source
  have hbalanced : (s.trailOf key result).Balances slots.holders := by
    cases result with
    | error e =>
      obtain rfl := (Slots.resolve_error hr).1
      exact h
    | ok handle =>
      rcases Slots.resolve_ok hr with ⟨slot, hslot, _, rfl⟩ | ⟨hnone, rfl⟩
      · have hlive : s.slots.isLive key = true := Option.isSome_iff_exists.mpr ⟨slot, hslot⟩
        rw [trailOf, if_pos hlive]
        exact h
      · have hfree : s.slots.isLive key = false := congrArg Option.isSome hnone
        rw [trailOf, hfree, if_neg Bool.false_ne_true]
        exact Trail.Balances.resolve h _ (s.slots.holders_fill key _)
  rw [he]
  exact hbalanced

theorem retire_balanced (h : s.Balanced) (key : SlotKey) : (s.retire key).Balanced := by
  unfold retire
  split
  · rename_i hr
    exact Trail.Balances.retire h fun task => Slots.holders_retire hr
  · exact h

theorem retireLane_balanced (h : s.Balanced) (lane : Lane) : (s.retireLane lane).Balanced :=
  Trail.Balances.retireAll h (s.slots.holders_retireLane lane s.plan)

theorem retireAll_balanced (h : s.Balanced) : s.retireAll.Balanced :=
  Trail.Balances.retireAll h (s.slots.holders_retireAll s.plan)

theorem Move.balanced (hm : s.Move lane s') (h : s.Balanced) : s'.Balanced := by
  cases hm with
  | resolve key source _ => exact resolve_balanced h key source
  | retire key _ => exact retire_balanced h key
  | retireLane => exact retireLane_balanced h lane
  | emit event payload =>
    unfold emitOnRoot
    split <;> exact h
  | read hr =>
    obtain ⟨scopes, _, rfl⟩ := read_ok hr
    exact h
  | record r hr =>
    refine Core.Balanced.record h ?_
    cases r <;> first | rfl | cases hr
  | write | output | reset | await => exact h

theorem Moves.balanced (hm : s.Moves lane s') (h : s.Balanced) : s'.Balanced :=
  hm.preserves (P := fun t => t.Balanced) (fun _ _ hm h => hm.balanced h) h

end Stage

end Conductor
