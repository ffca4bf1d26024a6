import Conductor.Log

/-!
The log by numbers: what a window tells about a task is told by the numbered events, and a log
that goes on keeps the numbers that it gave.
-/

namespace Conductor

namespace Log

/-- A task emitted an event that counts as `name` and has the number `since` or a later one. -/
def Shows (log : Log) (task : TaskId) (name : EventName) (since : Nat) : Prop :=
  ∃ n e, (n, e) ∈ log.numbered ∧ since ≤ n ∧ e.task = task ∧ e.name.implies name = true

theorem mem_numbered {log : Log} {n : Nat} {e : Event} :
    (n, e) ∈ log.numbered ↔ log.newestFirst.reverse[n]? = some e := by
  simp only [numbered, List.mem_map, Prod.mk.injEq, Prod.exists]
  constructor
  · rintro ⟨_, _, h, rfl, rfl⟩
    exact List.mem_zipIdx_iff_getElem?.mp h
  · intro h
    exact ⟨e, n, List.mem_zipIdx_iff_getElem?.mpr h, rfl, rfl⟩

theorem mem_window {log : Log} {since : Nat} {e : Event} :
    e ∈ log.window since ↔ ∃ n, (n, e) ∈ log.numbered ∧ since ≤ n := by
  unfold window
  rw [log.counted]
  constructor
  · intro h
    obtain ⟨i, hi⟩ := List.mem_iff_getElem?.mp h
    rw [List.getElem?_take] at hi
    split at hi
    · rename_i hlt
      obtain ⟨hlen, _⟩ := List.getElem?_eq_some_iff.mp hi
      refine ⟨log.newestFirst.length - 1 - i, mem_numbered.mpr ?_, by omega⟩
      rw [List.getElem?_reverse (by omega), ← hi]
      congr 1
      omega
    · cases hi
  · rintro ⟨n, h, hsince⟩
    have hn := mem_numbered.mp h
    obtain ⟨hlen, _⟩ := List.getElem?_eq_some_iff.mp hn
    rw [List.length_reverse] at hlen
    rw [List.getElem?_reverse hlen] at hn
    refine List.mem_iff_getElem?.mpr ⟨log.newestFirst.length - 1 - n, ?_⟩
    rw [List.getElem?_take, if_pos (by omega)]
    exact hn

theorem occurred_iff {log : Log} {task : TaskId} {name : EventName} {since : Nat} :
    log.occurred task name since = true ↔ log.Shows task name since := by
  rw [occurred_eq_any_window, List.any_eq_true]
  constructor
  · rintro ⟨e, he, h⟩
    obtain ⟨n, hn, hsince⟩ := mem_window.mp he
    obtain ⟨ht, hi⟩ : e.task = task ∧ e.name.implies name = true := by simpa using h
    exact ⟨n, e, hn, hsince, ht, hi⟩
  · rintro ⟨n, e, hn, hsince, ht, hi⟩
    exact ⟨e, mem_window.mpr ⟨n, hn, hsince⟩, by simp [ht, hi]⟩

theorem Shows.mono {log : Log} {task : TaskId} {name : EventName} {since since' : Nat}
    (h : log.Shows task name since) (hle : since' ≤ since) : log.Shows task name since' := by
  obtain ⟨n, e, hn, hsince, h⟩ := h
  exact ⟨n, e, hn, Nat.le_trans hle hsince, h⟩

/-- A task ended by an event that has the number `since` or a later one. -/
def Ended (log : Log) (task : TaskId) (since : Nat) : Prop :=
  ∃ n e, (n, e) ∈ log.numbered ∧ since ≤ n ∧ e.task = task ∧ e.name.isTerminal = true

theorem finished_iff {log : Log} {task : TaskId} {since : Nat} :
    log.finished task since = true ↔ log.Ended task since := by
  rw [finished_eq_any_window, List.any_eq_true]
  constructor
  · rintro ⟨e, he, h⟩
    obtain ⟨n, hn, hsince⟩ := mem_window.mp he
    obtain ⟨ht, hends⟩ : e.task = task ∧ e.name.isTerminal = true := by simpa using h
    exact ⟨n, e, hn, hsince, ht, hends⟩
  · rintro ⟨n, e, hn, hsince, ht, hends⟩
    exact ⟨e, mem_window.mpr ⟨n, hn, hsince⟩, by simp [ht, hends]⟩

/-- A log goes on from another one. -/
def Extends (log log' : Log) : Prop := log.newestFirst <:+ log'.newestFirst

theorem Extends.refl (log : Log) : log.Extends log := List.suffix_refl _

theorem Extends.trans {log log' log'' : Log} (h : log.Extends log') (h' : log'.Extends log'') :
    log.Extends log'' :=
  List.IsSuffix.trans h h'

theorem extends_record (log : Log) (e : Event) : log.Extends (log.record e) :=
  List.suffix_cons e log.newestFirst

theorem Extends.cursor_le {log log' : Log} (h : log.Extends log') : log.cursor ≤ log'.cursor := by
  rw [log.counted, log'.counted]
  exact h.length_le

theorem Extends.shows {log log' : Log} (h : log.Extends log') {task : TaskId} {name : EventName}
    {since : Nat} (hs : log.Shows task name since) : log'.Shows task name since := by
  obtain ⟨n, e, hn, hs⟩ := hs
  refine ⟨n, e, mem_numbered.mpr ?_, hs⟩
  obtain ⟨newer, hnewer⟩ := h
  have hget := mem_numbered.mp hn
  obtain ⟨hlt, _⟩ := List.getElem?_eq_some_iff.mp hget
  rw [← hnewer, List.reverse_append, List.getElem?_append_left hlt]
  exact hget

/-! ## The next event -/

theorem window_record (log : Log) (e : Event) (since : Nat) :
    (log.record e).window since =
      if since ≤ log.cursor then e :: log.window since else log.window since := by
  unfold window record
  split
  · rw [Nat.succ_sub (by assumption)]
    rfl
  · rw [show log.cursor + 1 - since = 0 by omega, show log.cursor - since = 0 by omega]
    rfl

/-- An event that counts as no such event of the task makes no difference to whether one was
seen. -/
theorem occurred_record (log : Log) {e : Event} {task : TaskId} {name : EventName}
    (h : ¬ (e.task = task ∧ e.name.implies name = true)) (since : Nat) :
    (log.record e).occurred task name since = log.occurred task name since := by
  rw [occurred_eq_any_window, occurred_eq_any_window, window_record]
  split
  · have hno : (e.task == task && e.name.implies name) = false := by simpa using h
    rw [List.any_cons, hno, Bool.false_or]
  · rfl

/-- An event that does not end a task makes no difference to whether the task ended. -/
theorem finished_record (log : Log) {e : Event} {task : TaskId}
    (h : ¬ (e.task = task ∧ e.name.isTerminal = true)) (since : Nat) :
    (log.record e).finished task since = log.finished task since := by
  rw [finished_eq_any_window, finished_eq_any_window, window_record]
  split
  · have hno : (e.task == task && e.name.isTerminal) = false := by simpa using h
    rw [List.any_cons, hno, Bool.false_or]
  · rfl

theorem finished_of_record {log : Log} {task : TaskId} {since : Nat}
    (h : log.finished task since = true) (e : Event) :
    (log.record e).finished task since = true := by
  rw [finished_eq_any_window] at h ⊢
  rw [window_record]
  split
  · rw [List.any_cons, h, Bool.or_true]
  · exact h

/-! ## Going on -/

theorem ext_newestFirst {log log' : Log} (h : log.newestFirst = log'.newestFirst) : log = log' := by
  obtain ⟨newest, cursor, latest, rfl, rfl⟩ := log
  obtain ⟨newest', cursor', latest', rfl, rfl⟩ := log'
  obtain rfl : newest = newest' := h
  rfl

/-- What holds of a log and goes on to hold with each event that is recorded, holds of every log
that goes on from it. -/
theorem Extends.induction {motive : Log → Prop} {log log' : Log} (h : log.Extends log')
    (base : motive log) (step : ∀ log e, motive log → motive (log.record e)) : motive log' := by
  obtain ⟨newer, hnewer⟩ := h
  induction newer generalizing log' with
  | nil =>
    obtain rfl : log = log' := ext_newestFirst hnewer
    exact base
  | cons e newer ih =>
    obtain ⟨before, hbefore⟩ : ∃ before : Log, before.newestFirst = newer ++ log.newestFirst :=
      ⟨⟨_, _, _, rfl, rfl⟩, rfl⟩
    obtain rfl : before.record e = log' := by
      refine ext_newestFirst ?_
      show e :: before.newestFirst = log'.newestFirst
      rw [hbefore]
      exact hnewer
    exact step before e (ih hbefore.symm)

variable {log log' : Log} {task : TaskId} {name : EventName} {since : Nat}

theorem Extends.occurred (h : log.Extends log') (ho : log.occurred task name since = true) :
    log'.occurred task name since = true :=
  occurred_iff.mpr (h.shows (occurred_iff.mp ho))

theorem Extends.finished (h : log.Extends log') (hf : log.finished task since = true) :
    log'.finished task since = true :=
  h.induction (motive := fun log => log.finished task since = true) hf
    fun _ e hf => finished_of_record hf e

/-- The log once events are recorded in turn. -/
def recordAll (log : Log) (events : List Event) : Log := events.foldl record log

theorem extends_recordAll (log : Log) (events : List Event) : log.Extends (log.recordAll events) := by
  unfold recordAll
  induction events generalizing log with
  | nil => exact .refl log
  | cons e rest ih => exact (extends_record log e).trans (ih _)

/-- Events of other tasks make no difference to what a task emitted. -/
theorem occurred_recordAll (log : Log) {events : List Event} (h : ∀ e ∈ events, e.task ≠ task)
    (name : EventName) (since : Nat) :
    (log.recordAll events).occurred task name since = log.occurred task name since := by
  unfold recordAll
  induction events generalizing log with
  | nil => rfl
  | cons e rest ih =>
    obtain ⟨he, hrest⟩ := List.forall_mem_cons.mp h
    rw [List.foldl_cons, ih _ hrest, occurred_record log fun hsame => he hsame.1]

/-- A task emitted an event after it had ended without it. -/
def Belated (log : Log) (task : TaskId) (name : EventName) (since : Nat) : Prop :=
  ∃ early : Log, early.Extends log ∧ early.finished task since = true ∧
    early.occurred task name since = false ∧ log.occurred task name since = true

/-- A log goes on from another one with no event of a task that had ended by then. -/
inductive Continues (log : Log) : Log → Prop where
  | refl : Continues log log
  | record {log' : Log} (e : Event) : Continues log log' → log'.finished e.task 0 = false →
    Continues log (log'.record e)

theorem Continues.extends (h : log.Continues log') : log.Extends log' := by
  induction h with
  | refl => exact .refl log
  | record e _ _ ih => exact ih.trans (extends_record _ e)

theorem finished_since_zero (h : log.finished task since = true) : log.finished task 0 = true := by
  rw [finished_eq_any_window, List.any_eq_true] at h ⊢
  obtain ⟨e, he, hends⟩ := h
  obtain ⟨n, hn, _⟩ := mem_window.mp he
  exact ⟨e, mem_window.mpr ⟨n, hn, Nat.zero_le n⟩, hends⟩

/-- What a task ended without does not happen any more. -/
theorem Continues.occurred_eq_false (h : log.Continues log')
    (hf : log.finished task since = true) (ho : log.occurred task name since = false) :
    log'.occurred task name since = false := by
  induction h with
  | refl => exact ho
  | @record log' e hcontinues hopen ih =>
    have hother : ¬ (e.task = task ∧ e.name.implies name = true) := by
      rintro ⟨rfl, -⟩
      have hended := finished_since_zero (hcontinues.extends.finished hf)
      rw [hopen] at hended
      cases hended
    rw [occurred_record log' hother, ih]

end Log

end Conductor
