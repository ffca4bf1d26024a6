import Conductor.Proofs.Session.Quiescence
import Conductor.Proofs.Stage.Ledger

/-!
The ledger of a session. Whatever a session goes through, its trail balances what its slots hold:
the engines and the ends of the session put every slot on record that they fill or empty, and
nothing else is ever recorded as resolved or retired. When a session has ended, what it resolved is
retired.
-/

namespace Conductor

namespace Scene

variable {c : Scene}

/-- The trail of the session balances what its slots hold. -/
abbrev Balanced (c : Scene) : Prop := c.session.core.Balanced

/-! What a session does beside retiring everything when it ends. -/

theorem succeed_core (c : Scene) (completion : Completion) :
    (c.succeed completion).2.session.core = c.retireEverything.session.core := by
  unfold succeed
  generalize c.retireEverything = d
  cases completion.kind <;> rfl

theorem fail_core (c : Scene) (error : Error) :
    (c.fail error).2.session.core = c.retireEverything.session.core := by
  unfold fail
  generalize c.retireEverything = d
  rfl

theorem halt_core (c : Scene) (reason : String) :
    (c.halt reason).2.session.core =
      (c.retireEverything.record (.stopped reason)).session.core := by
  unfold halt
  generalize c.retireEverything = d
  rfl

namespace Balanced

theorem record (h : c.Balanced) {r : Trail.Record} (hr : r.ofSlot = false) :
    (c.record r).Balanced :=
  Core.Balanced.record h hr

theorem enqueue (h : c.Balanced) (f : Fault) : (c.enqueue f).Balanced := by
  let waiting := c.map fun session => { session with faults := (session.faults.enqueue f).2 }
  have hdropped : (waiting.recordDropped (c.session.faults.enqueue f).1).Balanced := by
    cases (c.session.faults.enqueue f).1 with
    | none => exact h
    | some old => exact record (c := waiting) h rfl
  exact hdropped.record rfl

theorem abandonHandler (h : c.Balanced) (hs : c.Sound) : c.abandonHandler.2.Balanced := by
  cases ha : c.session.faults.active with
  | none =>
    simp only [Scene.abandonHandler, ha]
    exact h
  | some active =>
    have hstopped := (Engine.stop_calms (hs.handler active ha) c.stage).1.moves.balanced h
    simp only [Scene.abandonHandler, ha]
    exact hstopped

theorem retireEverything (h : c.Balanced) (hs : c.Sound) : c.retireEverything.Balanced := by
  have hcleared : c.cleared.Balanced := h.abandonHandler hs
  have hstopped := (Engine.stop_calms hs.cleared c.cleared.stage).1.moves.balanced hcleared
  rw [Balanced, retireEverything_eq, withEngine_core]
  exact Stage.retireAll_balanced hstopped

theorem succeed (h : c.Balanced) (hs : c.Sound) (completion : Completion) :
    (c.succeed completion).2.Balanced := by
  rw [Balanced, succeed_core]
  exact h.retireEverything hs

theorem fail (h : c.Balanced) (hs : c.Sound) (error : Error) : (c.fail error).2.Balanced := by
  rw [Balanced, fail_core]
  exact h.retireEverything hs

theorem halt (h : c.Balanced) (hs : c.Sound) (reason : String) :
    (c.halt reason).2.Balanced := by
  rw [Balanced, halt_core]
  exact (h.retireEverything hs).record rfl

/-- Every turn keeps the balance. -/
theorem turn {m m' : Moment} (ht : Turn m m') (hs : m.scene.Sound) (h : m.scene.Balanced) :
    m'.scene.Balanced := by
  cases ht with
  | begin => exact h.record (r := .started _) rfl
  | cancel | hear | count | draw | install => exact h
  | model _ _ hact => exact (hact.moves hs.model).1.balanced h
  | handler _ ha hact => exact (hact.moves (hs.handler _ ha)).1.balanced h
  | unhandled | trigger => exact h.record rfl
  | @queue c f => exact h.enqueue f
  | displace => exact (h.abandonHandler hs).record rfl
  | @resolve c active completion => exact h.record (r := .fault active.fault .resolved _) rfl
  | @escalate c active => exact h.record (r := .fault active.fault .escalated _) rfl
  | @exhaust c f =>
    have hgiven : (c.giveUp f).Balanced := h.record (r := .fault f .exhausted none) rfl
    exact hgiven.fail (hs.of_same rfl rfl id) .escalationExhausted
  | succeed completion => exact h.succeed hs completion
  | fail error => exact h.fail hs error
  | halt reason => exact h.halt hs reason

theorem call (h : c.Balanced) (hs : c.Sound) (call : Call) : (c.call call).Balanced := by
  refine (call_preserves (P := Balanced) (fun _ _ => turn) hs call (fun command _ h => ?_) h).1
  rw [Balanced, drive_session]
  exact h

end Balanced

end Scene

namespace Session

variable {s : Session}

theorem Reachable.balanced (h : s.Reachable) : s.core.Balanced := by
  induction h with
  | unstarted hs =>
    rw [Core.Balanced, hs.fresh.trail, hs.fresh.slots]
    exact fun _ _ => .nil
  | call p call hs ih => exact Scene.Balanced.call (c := ⟨_, p⟩) ih (hs.sound p) call
  | taken _ ih => exact ih

/-- The trail of a session is a ledger of its slots. A task is on record as resolved as often as it
is as retired, and once more for each slot that holds it now; at no point of the trail was it
retired more often than resolved. When the session has ended, the two are the same. -/
theorem Reachable.trail_balances_slots (h : s.Reachable) (he : s.core.trail.enabled = true)
    (task : TaskId) :
    let resolved (rs : List Trail.Record) : Nat := rs.countP (Trail.Record.isResolved task)
    let retired (rs : List Trail.Record) : Nat := rs.countP (Trail.Record.isRetired task)
    let records := s.core.trail.records
    resolved records = retired records + s.core.slots.holders task ∧
    (∀ rs, rs <+: records → retired rs ≤ resolved rs) ∧
    (s.status.isTerminal = true → resolved records = retired records) := by
  intro resolved retired records
  have hledger := h.balanced he task
  have hcount : resolved records = retired records + s.core.slots.holders task := by
    simp only [resolved, retired, records, Trail.records, List.countP_reverse]
    exact hledger.count
  refine ⟨hcount, fun rs hrs => ?_, fun ht => ?_⟩
  · have holder : rs.reverse <:+ s.core.trail.newestFirst := by
      rw [← List.reverse_prefix, List.reverse_reverse]
      exact hrs
    obtain ⟨n, hearlier⟩ := hledger.earlier holder
    have hn := hearlier.count
    rw [List.countP_reverse, List.countP_reverse] at hn
    exact Nat.le_of_add_right_le (Nat.le_of_eq hn.symm)
  · have hn : s.isRunning = false := by simpa [isRunning] using Status.not_running ht
    have hrest := h.resting .empty hn
    rw [hcount, Slots.holders, hrest.slots]
    rfl

/-- The tasks of the model and of a handler, once the session is stopped. -/
theorem trail_balances_slots_stopped :
    let s := (Scene.after ⟨aided, .sample⟩ [.stop]).session
    let records := s.core.trail.records
    s.Reachable ∧ s.core.trail.enabled = true ∧ s.status.isTerminal = true ∧
      records.countP (Trail.Record.isResolved ⟨"task-3"⟩) = 1 ∧
      records.countP (Trail.Record.isRetired ⟨"task-3"⟩) = 1 := by
  intro s records
  have hs : s.Reachable := aided_reachable.after .sample [.stop]
  have hresolved : records.countP (Trail.Record.isResolved ⟨"task-3"⟩) = 1 := by decide +kernel
  have hterminal : s.status.isTerminal = true := by decide +kernel
  have he : s.core.trail.enabled = true := by decide +kernel
  have hsame := (hs.trail_balances_slots he ⟨"task-3"⟩).2.2 hterminal
  exact ⟨hs, he, hterminal, hresolved, hsame.symm.trans hresolved⟩

end Session

end Conductor
