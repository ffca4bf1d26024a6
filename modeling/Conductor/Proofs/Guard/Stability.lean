import Conductor.Proofs.Guard.Kleene
import Conductor.Proofs.Log

/-!
Decided guards are stable. An event that was seen has been seen, whatever else is recorded. That it
can no longer happen stays so as long as the tasks that have ended emit no more. So leaves that are
decided keep their truth, only pending ones are decided as time goes on, and since Kleene's
connectives are monotone in that order, a guard that is decided keeps its truth as well.
-/

namespace Conductor

namespace Log

variable {log log' : Log} {task : TaskId} {name : EventName} {since : Nat}

/-- How it stands with an event of a task: it was seen, it can no longer happen, or neither. -/
def standing (log : Log) (task : TaskId) (name : EventName) (since : Nat) : Truth :=
  if log.occurred task name since then .yes
  else if log.finished task since then .no
  else .pending

/-- How it stands with an event stays as it is when it is decided, unless the event comes after the
end of its task. -/
theorem standing_refines (h : log.Extends log')
    (hsilent : log.finished task since = true → log.occurred task name since = false →
      log'.occurred task name since = false) :
    (log'.standing task name since).Refines (log.standing task name since) := by
  unfold standing
  cases hseen : log.occurred task name since with
  | true =>
    rw [h.occurred hseen]
    exact .refl _
  | false =>
    cases hended : log.finished task since with
    | true =>
      rw [hsilent hended hseen, h.finished hended]
      exact .refl _
    | false => exact .inl rfl

end Log

/-- The view once events are on record. -/
def View.hearAll (v : View) (events : List Event) : View := { v with log := v.log.recordAll events }

variable {v : View} {events : List Event}

/-- A leaf that is decided keeps its truth while the tasks that have ended are silent. -/
theorem Leaf.decide_hearAll (hsilent : ∀ e ∈ events, ¬ v.log.Ended e.task v.since) (l : Leaf) :
    (l.decide (v.hearAll events)).Refines (l.decide v) := by
  cases l with
  | equals name value => exact .refl _
  | emitted ref event =>
    have htask : (v.hearAll events).task? ref = v.task? ref := by cases ref <;> rfl
    simp only [decide, htask]
    cases v.task? ref with
    | none => exact .refl _
    | some task =>
      refine Log.standing_refines (v.log.extends_recordAll events) fun hended hseen => ?_
      rw [← hseen]
      refine v.log.occurred_recordAll (fun e he hsame => ?_) event v.since
      refine hsilent e he ?_
      rw [hsame]
      exact Log.finished_iff.mp hended

/-- A memo that agrees with the view goes on to agree. -/
theorem Memo.Agrees.hearAll {m : Memo} (hm : m.Agrees v)
    (hsilent : ∀ e ∈ events, ¬ v.log.Ended e.task v.since) : m.Agrees (v.hearAll events) := by
  intro l b hl
  have hthen := hm l b hl
  rcases l.decide_hearAll hsilent with hpending | hsame
  · rw [hthen] at hpending
    cases b <;> cases hpending
  · rw [hsame, hthen]

/-- A guard that is decided keeps its truth however the log goes on, as long as none of the events
is of a task that has ended in the window. That is so if it is evaluated afresh, and also with a memo
that is left from before. -/
theorem Guard.decided_stays (v : View) (events : List Event)
    (hsilent : ∀ e ∈ events, ¬ v.log.Ended e.task v.since) (g : Guard)
    (hdecided : (g.evaluate v .empty).1.isDecided = true) :
    (g.evaluate (v.hearAll events) .empty).1 = (g.evaluate v .empty).1 ∧
      ∀ m : Memo, m.Agrees v →
        (g.evaluate (v.hearAll events) m).1 = (g.evaluate v .empty).1 := by
  have hrefines : (g.denote (v.hearAll events)).Refines (g.denote v) := by
    rw [denote_eq_weigh, denote_eq_weigh]
    exact g.weigh_refines fun l _ => l.decide_hearAll hsilent
  rw [evaluate_eq_denote (.empty v)] at hdecided ⊢
  have hkept : g.denote (v.hearAll events) = g.denote v := by
    rcases hrefines with hpending | hsame
    · rw [hpending] at hdecided
      cases hdecided
    · exact hsame
  refine ⟨?_, fun m hm => ?_⟩
  · rw [evaluate_eq_denote (.empty _), hkept]
  · rw [evaluate_eq_denote (hm.hearAll hsilent), hkept]

/-! ## A sample -/

/-- A helper fails, and the root stops and yet says to go once more. -/
def View.commotion : List Event :=
  [⟨⟨"task-3"⟩, .failed, none⟩, ⟨⟨"task-1"⟩, .stop, none⟩, ⟨⟨"task-1"⟩, ⟨"go"⟩, none⟩]

/-- The current task has ended without failing, and the root has said to go: this goes for good. -/
theorem Guard.decided_stays_surveying :
    let g : Guard := .all [.not (.on .failed), .leaf (.emitted .root ⟨"go"⟩)]
    (∀ e ∈ View.commotion, ¬ View.surveying.log.Ended e.task View.surveying.since) ∧
      (g.evaluate .surveying .empty).1 = .yes ∧
      (g.evaluate (View.surveying.hearAll View.commotion) .empty).1 = .yes := by
  intro g
  have hsilent : ∀ e ∈ View.commotion,
      ¬ View.surveying.log.Ended e.task View.surveying.since := by
    intro e he hended
    have hopen : ∀ e ∈ View.commotion,
        View.surveying.log.finished e.task View.surveying.since = false := by decide
    rw [← Log.finished_iff, hopen e he] at hended
    cases hended
  have hyes : (g.evaluate .surveying .empty).1 = .yes := by decide
  obtain ⟨hstays, -⟩ := Guard.decided_stays .surveying View.commotion hsilent g (by rw [hyes]; rfl)
  exact ⟨hsilent, hyes, hstays.trans hyes⟩

/-- It does not if the current task fails after it has ended. -/
example : ((Guard.not (.on .failed)).evaluate
    (View.surveying.hearAll [⟨⟨"task-2"⟩, .failed, none⟩]) .empty).1 = .no := by decide

end Conductor
