import Conductor.Engine.Course
import Conductor.Proofs.Guard.Verdict
import Conductor.Proofs.Log
import Conductor.Proofs.Stage.Kept

/-!
The window of a step: which events of the root can have made a guard of the step true. A step that
has a task sees what was recorded since the step was entered, one without a task sees as far back
as the last step that had one did.
-/

namespace Conductor

/-! ## Memos -/

/-- Whatever a memo has as seen on the root is on record. -/
def Memo.Shown (log : Log) (root : TaskId) (since : Nat) (m : Memo) : Prop :=
  ∀ event, m.lookup (.emitted .root event) = some true → log.Shows root event since

theorem Memo.shown_empty (log : Log) (root : TaskId) (since : Nat) :
    Memo.empty.Shown log root since :=
  fun _ h => nomatch h

theorem Leaf.decide_root_eq_yes {v : View} {event : EventName} :
    (Leaf.emitted .root event).decide v = .yes ↔ v.log.Shows v.root event v.since := by
  rw [← Log.occurred_iff]
  simp only [decide, View.task?]
  cases v.log.occurred v.root event v.since with
  | true => simp
  | false => cases v.log.finished v.root v.since <;> simp

theorem Memo.Learned.shown {v : View} {m m' : Memo} (h : m.Learned v m')
    (hm : m.Shown v.log v.root v.since) : m'.Shown v.log v.root v.since := by
  intro event hlookup
  rcases h (.emitted .root event) with heq | ⟨_, hd, heq⟩
  · exact hm event (heq.symm.trans hlookup)
  · have hyes : (Leaf.emitted .root event).decide v = .yes := by
      have hverdict := Truth.ofBool_isTrue hd
      rw [Option.some.inj (heq.symm.trans hlookup)] at hverdict
      exact hverdict.symm
    exact Leaf.decide_root_eq_yes.mp hyes

/-- A leaf on the root counts as true only if its event is on record. -/
theorem Memo.Shown.of_verdict {v : View} {m : Memo} (hm : m.Shown v.log v.root v.since)
    {event : EventName} (h : (Leaf.emitted .root event).verdict v m = .yes) :
    v.log.Shows v.root event v.since := by
  rw [Leaf.verdict_eq] at h
  cases hl : m.lookup (.emitted .root event) with
  | none =>
    rw [hl] at h
    exact Leaf.decide_root_eq_yes.mp h
  | some b =>
    rw [hl] at h
    cases b with
    | true => exact hm event hl
    | false => cases h

namespace Stage

variable {lane : Lane} {s s' : Stage}

theorem Moves.log (h : s.Moves lane s') : s'.log = s.log := (Kept.moves h).log

theorem Moves.root (h : s.Moves lane s') : s'.root = s.root :=
  congrArg Handle.id (Kept.moves h).root

theorem Calms.log {loud : Bool} (h : s.Calms lane loud s') : s'.log = s.log := h.moves.log

theorem Calms.root {loud : Bool} (h : s.Calms lane loud s') : s'.root = s.root := h.moves.root

theorem Reports.log {depth : Nat} {noted : Bool} (h : s.Reports lane depth noted s') :
    s'.log = s.log :=
  h.moves.log

theorem evaluate_shown (guard : Guard) {focus : Focus} {memo : Memo}
    (h : memo.Shown s.log s.root focus.since) :
    (s.evaluate guard focus memo).2.1.Shown s.log s.root focus.since := by
  have hlearned := guard.evaluate_learned (s.view guard focus).1 memo
  have hmoves : s.Calms .model false _ := view_calms s guard focus
  have hlog : (s.view guard focus).1.log = s.log := hmoves.log
  have hroot : (s.view guard focus).1.root = s.root := hmoves.root
  have hshown := hlearned.shown (by rw [hlog, hroot]; exact h)
  rw [hlog, hroot] at hshown
  exact hshown

end Stage

/-! ## Courses -/

namespace Course

variable {log log' : Log} {root : TaskId} {n : Nat} {c c' : Course}

/-- The active step was entered when `n` events were recorded, and what its memo has of the root
is on record in its window. -/
structure Windowed (log : Log) (root : TaskId) (n : Nat) (c : Course) : Prop where
  opened : n ≤ log.cursor
  since : ∀ step, c.step = some step → step.since = n
  last : ∀ focus, c.last = some focus → focus.since ≤ n
  memo : ∀ step, c.step = some step → c.memo.Shown log root (step.focus c.last).since

theorem Windowed.of_no_step (hn : n ≤ log.cursor) (hs : c.step = none)
    (hl : ∀ focus, c.last = some focus → focus.since ≤ n) : c.Windowed log root n :=
  ⟨hn, fun step h => by simp [hs] at h, hl, fun step h => by simp [hs] at h⟩

theorem Windowed.later (h : c.Windowed log root n) (hl : log.Extends log') :
    c.Windowed log' root n where
  opened := Nat.le_trans h.opened hl.cursor_le
  since := h.since
  last := h.last
  memo := fun step hs event he => hl.shows (h.memo step hs event he)

/-- The task of the active step was taken away, so its window opens no later than before. -/
theorem Windowed.lose {step : ActiveStep} (h : c.Windowed log root n) (hs : c.step = some step) :
    Windowed log root n { c with step := some { step with task := none }, replaced := true } where
  opened := h.opened
  since := by
    rintro _ ⟨⟩
    exact h.since step hs
  last := h.last
  memo := by
    rintro _ ⟨⟩ event he
    refine (h.memo step hs event he).mono ?_
    have hsince := h.since step hs
    unfold ActiveStep.focus
    cases hl : c.last with
    | none => cases step.task <;> exact Nat.le_refl _
    | some focus =>
      have := h.last focus hl
      cases step.task with
      | none => exact Nat.le_refl _
      | some task => simpa [hsince] using this

/-- The window after an engine acted: that of the step before, or that of a step entered now. -/
inductive Next (log : Log) (root : TaskId) (n : Nat) (c c' : Course) : Prop where
  | stays : c'.activation = c.activation → c'.Windowed log root n → Next log root n c c'
  | enters : c.activation < c'.activation → c'.Windowed log root log.cursor → Next log root n c c'

theorem Next.after_entry {c₁ : Course} (h : Next log root log.cursor c₁ c')
    (hc : c.activation < c₁.activation) : Next log root n c c' := by
  cases h with
  | stays ha hw => exact .enters (ha ▸ hc) hw
  | enters ha hw => exact .enters (Nat.lt_trans hc ha) hw

theorem Next.of_eq {c₁ : Course} (h : Next log root n c₁ c')
    (hc : c₁.activation = c.activation) : Next log root n c c' := by
  cases h with
  | stays ha hw => exact .stays (ha.trans hc) hw
  | enters ha hw => exact .enters (hc ▸ ha) hw

/-- A step just entered has nothing decided. -/
theorem Windowed.entered {step : ActiveStep} (hs : c.step = some step)
    (hsince : step.since = log.cursor) (hm : c.memo = .empty)
    (hl : ∀ focus, c.last = some focus → focus.since ≤ log.cursor) :
    c.Windowed log root log.cursor where
  opened := Nat.le_refl _
  since := fun other ho => by
    obtain rfl := Option.some.inj (hs.symm.trans ho)
    exact hsince
  last := hl
  memo := fun step _ => by
    rw [hm]
    exact Memo.shown_empty log root (step.focus c.last).since

end Course

end Conductor
