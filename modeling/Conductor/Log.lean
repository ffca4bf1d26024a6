import Conductor.Event

/-!
The log of observed events. An event's number is the count of events recorded before it, and a
window opens at such a number: a step sees only what was recorded since it was entered.

What a window tells about a task depends on the latest event of each name alone, so those are kept
apart: `find?_recent` says that the newest event of a kind is among them, and `any_recent` that
one of a kind is there as soon as the window has any.
-/

namespace Conductor

/-- Whether two events have the same name and are of the same task. -/
def Event.alike (a b : Event) : Bool := a.task == b.task && a.name == b.name

namespace Log

/-- The latest event of each name on each task with its number, the newest first. -/
def latestOf : List Event → List (Nat × Event)
  | [] => []
  | e :: rest => (rest.length, e) :: (latestOf rest).filter fun p => !p.2.alike e

end Log

/-- Observed events, the newest first, with their count and the latest ones of each kind. -/
structure Log where
  newestFirst : List Event
  /-- The number that the next recorded event gets. -/
  cursor : Nat
  latest : List (Nat × Event)
  counted : cursor = newestFirst.length
  indexed : latest = Log.latestOf newestFirst
deriving DecidableEq

namespace Log

def empty : Log := ⟨[], 0, [], rfl, rfl⟩

instance : Inhabited Log := ⟨empty⟩

def record (log : Log) (e : Event) : Log where
  newestFirst := e :: log.newestFirst
  cursor := log.cursor + 1
  latest := (log.cursor, e) :: log.latest.filter fun p => !p.2.alike e
  counted := by simp [log.counted]
  indexed := by simp [latestOf, log.counted, log.indexed]

/-- Events from the number `since` on, the newest first. -/
def window (log : Log) (since : Nat) : List Event :=
  log.newestFirst.take (log.cursor - since)

/-- Of the events in a window the latest of each kind, the newest first. -/
def recent (log : Log) (since : Nat) : List Event :=
  (log.latest.takeWhile fun p => since ≤ p.1).map Prod.snd

/-- Whether a task emitted an event that counts as `name`. -/
def occurred (log : Log) (task : TaskId) (name : EventName) (since : Nat) : Bool :=
  (log.recent since).any fun e => e.task == task && e.name.implies name

/-- What the latest event of exactly this name carried. -/
def payload? (log : Log) (task : TaskId) (name : EventName) (since : Nat) : Option Value :=
  ((log.recent since).find? fun e => e.task == task && e.name == name).bind Event.payload

/-- Whether a task ended. -/
def finished (log : Log) (task : TaskId) (since : Nat) : Bool :=
  (log.recent since).any fun e => e.task == task && e.name.isTerminal

/-- Whether a task failed. -/
def failed (log : Log) (task : TaskId) (since : Nat) : Bool :=
  (log.recent since).any fun e => e.task == task && e.name.isFailure

/-- The events with their numbers, the oldest first. -/
def numbered (log : Log) : List (Nat × Event) :=
  log.newestFirst.reverse.zipIdx.map fun (e, n) => (n, e)

/-- The numbered events of one task, the oldest first. -/
def ofTask (log : Log) (task : TaskId) : List (Nat × Event) :=
  log.numbered.filter fun p => p.2.task == task

/-! The latest events of a window stand for all of it. -/

theorem number_lt_of_mem_latestOf {events : List Event} {p : Nat × Event}
    (h : p ∈ latestOf events) : p.1 < events.length := by
  induction events with
  | nil => simp [latestOf] at h
  | cons e rest ih =>
    rcases List.mem_cons.mp h with rfl | h
    · simp
    · exact Nat.lt_succ_of_lt (ih (List.mem_filter.mp h).1)

theorem latestOf_descending (events : List Event) :
    (latestOf events).Pairwise fun p q => q.1 < p.1 := by
  induction events with
  | nil => exact .nil
  | cons e rest ih =>
    refine List.pairwise_cons.mpr ⟨fun q hq => ?_, ih.filter _⟩
    exact number_lt_of_mem_latestOf (List.mem_filter.mp hq).1

/-- In a descending list what is at least a bound comes first. -/
theorem takeWhile_eq_filter {α : Type} {since : Nat} {entries : List (Nat × α)}
    (h : entries.Pairwise fun p q => q.1 < p.1) :
    (entries.takeWhile fun p => since ≤ p.1) = entries.filter fun p => since ≤ p.1 := by
  induction entries with
  | nil => rfl
  | cons p rest ih =>
    obtain ⟨hp, hr⟩ := List.pairwise_cons.mp h
    by_cases hs : since ≤ p.1
    · simp [hs, ih hr]
    · have : rest.filter (fun q => since ≤ q.1) = [] := by
        refine List.filter_eq_nil_iff.mpr fun q hq => ?_
        have := hp q hq
        simp only [decide_eq_true_eq]
        omega
      simp [hs, this]

/-- A test that goes by name and task finds the same event among the latest ones. -/
theorem find?_latestOf {test : Event → Bool}
    (h : ∀ a b : Event, a.alike b = true → test a = test b) (since : Nat) (events : List Event) :
    (((latestOf events).filter fun p => since ≤ p.1).map Prod.snd).find? test =
      (events.take (events.length - since)).find? test := by
  induction events with
  | nil => simp [latestOf]
  | cons e rest ih =>
    by_cases hs : since ≤ rest.length
    · have hl : (e :: rest).length - since = (rest.length - since) + 1 := by
        simp only [List.length_cons]
        omega
      rw [hl, List.take_succ_cons, List.find?_cons]
      simp only [latestOf, List.filter_cons, hs, decide_true, if_true, List.map_cons,
        List.find?_cons]
      cases he : test e with
      | true => rfl
      | false =>
        rw [← ih]
        simp only [List.find?_map, List.find?_filter]
        congr 2
        funext p
        by_cases ha : p.2.alike e = true
        · simp [ha, h _ _ ha, he]
        · simp [ha]
    · have hn : (latestOf (e :: rest)).filter (fun p => since ≤ p.1) = [] := by
        refine List.filter_eq_nil_iff.mpr fun p hp => ?_
        have := number_lt_of_mem_latestOf hp
        simp only [List.length_cons] at this
        simp only [decide_eq_true_eq]
        omega
      have hl : (e :: rest).length - since = 0 := by
        simp only [List.length_cons]
        omega
      rw [hn, hl]
      rfl

theorem find?_recent {test : Event → Bool}
    (h : ∀ a b : Event, a.alike b = true → test a = test b) (log : Log) (since : Nat) :
    (log.recent since).find? test = (log.window since).find? test := by
  simp only [recent, window, log.indexed, log.counted]
  rw [takeWhile_eq_filter (latestOf_descending _), find?_latestOf h]

theorem any_recent {test : Event → Bool}
    (h : ∀ a b : Event, a.alike b = true → test a = test b) (log : Log) (since : Nat) :
    (log.recent since).any test = (log.window since).any test := by
  rw [Bool.eq_iff_iff, List.any_eq_true, List.any_eq_true, ← List.find?_isSome,
    ← List.find?_isSome, find?_recent h]

theorem alike_iff {a b : Event} : a.alike b = true ↔ a.task = b.task ∧ a.name = b.name := by
  simp [Event.alike]

theorem occurred_eq_any_window (log : Log) (task : TaskId) (name : EventName) (since : Nat) :
    log.occurred task name since =
      (log.window since).any fun e => e.task == task && e.name.implies name :=
  any_recent (fun _ _ h => by simp [alike_iff.mp h]) log since

theorem finished_eq_any_window (log : Log) (task : TaskId) (since : Nat) :
    log.finished task since = (log.window since).any fun e => e.task == task && e.name.isTerminal :=
  any_recent (fun _ _ h => by simp [alike_iff.mp h]) log since

theorem failed_eq_any_window (log : Log) (task : TaskId) (since : Nat) :
    log.failed task since = (log.window since).any fun e => e.task == task && e.name.isFailure :=
  any_recent (fun _ _ h => by simp [alike_iff.mp h]) log since

end Log

end Conductor
