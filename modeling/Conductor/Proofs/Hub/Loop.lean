import Conductor.Proofs.Hub.Sessions
import Mathlib.Data.List.TakeDrop
import Mathlib.Data.List.TakeWhile

/-!
The loop of a run, one signal at a time. A signal is taken off the queue, every session that wants
it is told in turn, and what the plan has reported meanwhile is queued behind the signals that
still wait. The loop ends when no signal is left, or when the limit is reached before the next one
is taken. A run does what the loop does, and there is no other way for the loop to go.
-/

namespace Conductor

/-- A signal and the scene of the session that is told of it. -/
structure Delivery where
  signal : Signal
  scene : Scene

/-- The scene once the session has handled the signal. -/
def Delivery.handled (d : Delivery) : Scene := (d.scene.deliver d.signal).2

/-- Signals that were taken off before a round count with the run. -/
theorem RunReport.skipped_followedBy (skipped : Nat) (round later : RunReport) :
    { round with signals := skipped + 1 }.followedBy later =
      { { round with signals := 1 }.followedBy later with
        signals := skipped + ({ round with signals := 1 }.followedBy later).signals } := by
  simp [followedBy, Nat.add_assoc]

namespace Hub

variable {h h' : Hub} {signal : Signal} {cap delivered : Nat}

/-- The deliveries of a signal to sessions, one after the other. -/
def deliveries (signal : Signal) : List String → Hub → List Delivery
  | [], _ => []
  | id :: rest, h =>
    let later := deliveries signal rest (h.deliverTo signal id).2
    match h.session? id with
    | none => later
    | some session => ⟨signal, session, h.plan⟩ :: later

theorem deliveries_none {id : String} {rest : List String} (hs : h.session? id = none) :
    deliveries signal (id :: rest) h = deliveries signal rest h := by
  simp only [deliveries, deliverTo_none hs, hs]

theorem deliveries_some {id : String} {rest : List String} {s : Session}
    (hs : h.session? id = some s) :
    deliveries signal (id :: rest) h =
      ⟨signal, s, h.plan⟩ :: deliveries signal rest (h.deliverTo signal id).2 := by
  simp only [deliveries, hs]

/-- A signal is taken off the queue, in which `rest` is left, and handled to the end. -/
def serve (h : Hub) (signal : Signal) (rest : List Signal) : RunReport × Hub :=
  let (round, h) := deliverAll signal (h.targets signal) { h with queue := rest }
  ({ round with signals := 1 }, h.pump.2)

/-- The deliveries of a signal that is taken off the queue. -/
def served (h : Hub) (signal : Signal) (rest : List Signal) : List Delivery :=
  deliveries signal (h.targets signal) { h with queue := rest }

/-- The loop from a hub on, after some deliveries: the signals that it takes and the deliveries
that it makes until it ends, with its report. -/
inductive Loop (cap : Nat) :
    Nat → Hub → List Signal → List Delivery → RunReport → Hub → Prop where
  | idle {delivered : Nat} {h : Hub} : h.queue = [] →
    Loop cap delivered h [] [] (.ended false) h
  | full {delivered : Nat} {h : Hub} : h.queue ≠ [] → cap ≤ delivered →
    Loop cap delivered h [] [] (.ended true) h
  | take {delivered : Nat} {h h' : Hub} {signal : Signal} {rest taken : List Signal}
      {made : List Delivery} {report : RunReport} : h.queue = signal :: rest → delivered < cap →
    Loop cap (delivered + (h.serve signal rest).1.deliveries) (h.serve signal rest).2 taken made
      report h' →
    Loop cap delivered h (signal :: taken) (h.served signal rest ++ made)
      ((h.serve signal rest).1.followedBy report) h'

/-! ## Pumping -/

theorem pump_outbox (h : Hub) : h.pump.2.plan.outbox = [] := rfl

/-- Where the plan has nothing to report, nothing happens. -/
theorem pump_of_quiet (hq : h.plan.outbox = []) : h.pump.2 = h := by
  obtain ⟨⟨made, tasks, children, instantiated, stopped, emitted, outbox, subscriptions, models⟩,
    sessions, queue, interest, config⟩ := h
  subst hq
  simp [pump, Plan.poll]

theorem serve_outbox (h : Hub) (signal : Signal) (rest : List Signal) :
    (h.serve signal rest).2.plan.outbox = [] :=
  pump_outbox _

theorem serve_ids (h : Hub) (signal : Signal) (rest : List Signal) :
    (h.serve signal rest).2.ids = h.ids :=
  (Kept.deliverAll signal (h.targets signal) { h with queue := rest }).ids

theorem serve_config (h : Hub) (signal : Signal) (rest : List Signal) :
    (h.serve signal rest).2.config = h.config :=
  (Kept.deliverAll signal (h.targets signal) { h with queue := rest }).config

/-- A signal is delivered to as many sessions as want it. -/
theorem serve_deliveries (h : Hub) (signal : Signal) (rest : List Signal) :
    (h.serve signal rest).1.deliveries = (h.targets signal).length :=
  deliverAll_deliveries (h := { h with queue := rest }) signal
    fun _ hid => (h.targets_sublist signal).subset hid

theorem serve_deliveries_le (h : Hub) (signal : Signal) (rest : List Signal) :
    (h.serve signal rest).1.deliveries ≤ h.sessions.length := by
  rw [serve_deliveries]
  simpa [ids] using (h.targets_sublist signal).length_le

/-- What nobody wants is taken off and nothing else happens. -/
theorem serve_unwanted (rest : List Signal) (ht : h.targets signal = [])
    (hq : h.plan.outbox = []) :
    h.serve signal rest = (⟨1, 0, [], false⟩, { h with queue := rest }) ∧
      h.served signal rest = [] := by
  have hpump : { h with queue := rest }.pump.2 = { h with queue := rest } := pump_of_quiet hq
  unfold serve served
  rw [ht]
  exact ⟨congrArg (Prod.mk _) hpump, rfl⟩

/-! ## A run is the loop -/

/-- What a run takes off the queue at once is wanted by nobody, and the signal behind it by some
session. -/
theorem splitQueue_spec {queue unwanted rest : List Signal}
    (hs : h.splitQueue queue = (unwanted, rest)) :
    queue = unwanted ++ rest ∧ (∀ signal ∈ unwanted, h.targets signal = []) ∧
      ∀ signal ∈ rest.head?, h.targets signal ≠ [] := by
  rw [splitQueue, List.span_eq_takeWhile_dropWhile] at hs
  cases hs
  refine ⟨List.takeWhile_append_dropWhile.symm, ?_, ?_⟩
  · intro signal hsignal
    simpa using List.mem_takeWhile_imp hsignal
  · intro signal hsignal
    have hhead := List.head?_dropWhile_not (fun s => (h.targets s).isEmpty) queue
    rw [hsignal] at hhead
    simpa using hhead

namespace Loop

variable {taken taken' : List Signal} {made made' : List Delivery} {report report' : RunReport}
  {h'' : Hub}

/-- Signals that nobody wants are taken off one by one. -/
theorem skip {unwanted rest : List Signal} (hqueue : h.queue = unwanted ++ rest)
    (hu : ∀ signal ∈ unwanted, h.targets signal = []) (hq : h.plan.outbox = [])
    (hcap : delivered < cap)
    (hl : Loop cap delivered { h with queue := rest } taken made report h') :
    Loop cap delivered h (unwanted ++ taken) made
      { report with signals := unwanted.length + report.signals } h' := by
  induction unwanted generalizing h with
  | nil =>
    have hsame : { h with queue := rest } = h := by
      rw [← List.nil_append rest, ← hqueue]
    rw [hsame] at hl
    simpa using hl
  | cons signal unwanted ih =>
    obtain ⟨hserve, hserved⟩ := serve_unwanted (unwanted ++ rest) (hu signal List.mem_cons_self) hq
    have hrest := ih (h := { h with queue := unwanted ++ rest }) rfl
      (fun other ho => hu other (List.mem_cons_of_mem _ ho)) hq hl
    have hqueue' : h.queue = signal :: (unwanted ++ rest) := hqueue
    have htake := Loop.take hqueue' hcap (by rw [hserve]; exact hrest)
    rw [hserve, hserved] at htake
    simpa [RunReport.followedBy, Nat.add_assoc, Nat.add_comm 1] using htake

end Loop

/-- As long as the fuel covers what is left of the limit, a run goes as the loop does. -/
theorem runFor_loop {fuel : Nat} (hq : h.plan.outbox = [])
    (hfuel : h.config.maxDeliveries ≤ delivered + fuel) :
    ∃ taken made, Loop h.config.maxDeliveries delivered h taken made (runFor fuel delivered h).1
      (runFor fuel delivered h).2 := by
  have hend : ∀ {h : Hub} {delivered : Nat}, h.config.maxDeliveries ≤ delivered →
      Loop h.config.maxDeliveries delivered h [] [] (.ended !h.queue.isEmpty) h := by
    intro h delivered hcap
    cases hqueue : h.queue with
    | nil => exact .idle hqueue
    | cons signal rest => exact .full (by simp [hqueue]) hcap
  induction fuel generalizing h delivered with
  | zero => exact ⟨[], [], hend hfuel⟩
  | succ fuel ih =>
    simp only [runFor]
    split
    · rename_i hcap
      exact ⟨[], [], hend hcap⟩
    rename_i hcap
    have hcap' : delivered < h.config.maxDeliveries := by omega
    split
    · rename_i unwanted he
      obtain ⟨hqueue, hunwanted, _⟩ := splitQueue_spec he
      exact ⟨_, _, Loop.skip hqueue hunwanted hq hcap' (.idle rfl)⟩
    · rename_i unwanted signal rest he
      obtain ⟨hqueue, hunwanted, hwanted⟩ := splitQueue_spec he
      -- Every round that costs fuel delivers something, so the fuel covers what is left.
      have hround : 0 < (h.serve signal rest).1.deliveries := by
        rw [serve_deliveries]
        exact List.length_pos_iff.mpr (hwanted signal rfl)
      have hconfig := serve_config h signal rest
      have hleft : (h.serve signal rest).2.config.maxDeliveries ≤
          delivered + (h.serve signal rest).1.deliveries + fuel := by
        rw [hconfig]
        omega
      obtain ⟨taken, made, hlater⟩ := ih (serve_outbox h signal rest) hleft
      rw [hconfig] at hlater
      have htake := Loop.take (h := { h with queue := signal :: rest }) rfl hcap' hlater
      have hskip := Loop.skip hqueue hunwanted hq hcap' htake
      rw [RunReport.skipped_followedBy]
      exact ⟨_, _, hskip⟩

/-- A run goes as the loop does from where the plan's reports are queued. -/
theorem run_loop (h : Hub) :
    ∃ taken made, Loop h.config.maxDeliveries 0 h.pump.2 taken made h.runUntilIdle.1
      h.runUntilIdle.2 :=
  runFor_loop (h := h.pump.2) (pump_outbox h) (Nat.le_of_eq (Nat.zero_add _).symm)

namespace Loop

variable {taken taken' : List Signal} {made made' : List Delivery} {report report' : RunReport}
  {h'' : Hub}

/-- There is one way for the loop to go. -/
theorem unique (hl : Loop cap delivered h taken made report h')
    (hl' : Loop cap delivered h taken' made' report' h'') :
    taken = taken' ∧ made = made' ∧ report = report' ∧ h' = h'' := by
  induction hl generalizing taken' made' report' h'' with
  | idle hqueue =>
    cases hl' with
    | idle => exact ⟨rfl, rfl, rfl, rfl⟩
    | full hne => exact absurd hqueue hne
    | take hqueue' => simp [hqueue] at hqueue'
  | full hne hcap =>
    cases hl' with
    | idle hqueue => exact absurd hqueue hne
    | full => exact ⟨rfl, rfl, rfl, rfl⟩
    | take _ hlt => omega
  | take hqueue hlt _ ih =>
    cases hl' with
    | idle hqueue' => simp [hqueue] at hqueue'
    | full _ hcap => omega
    | take hqueue' _ hrest =>
      rw [hqueue] at hqueue'
      cases hqueue'
      obtain ⟨rfl, rfl, rfl, rfl⟩ := ih hrest
      exact ⟨rfl, rfl, rfl, rfl⟩

theorem signals (hl : Loop cap delivered h taken made report h') :
    report.signals = taken.length := by
  induction hl with
  | idle | full => rfl
  | take _ _ _ ih =>
    show 1 + _ = _
    rw [ih, List.length_cons, Nat.add_comm]

theorem truncated_iff (hl : Loop cap delivered h taken made report h') :
    report.truncated = true ↔ h'.queue ≠ [] := by
  induction hl with
  | idle hqueue => simp [RunReport.ended, hqueue]
  | full hne => simp [RunReport.ended, hne]
  | take _ _ _ ih => exact ih

theorem outbox (hl : Loop cap delivered h taken made report h') (hq : h.plan.outbox = []) :
    h'.plan.outbox = [] := by
  induction hl with
  | idle | full => exact hq
  | take _ _ _ ih => exact ih (serve_outbox ..)

/-- The loop is cut off only where the limit is reached. -/
theorem reaches (hl : Loop cap delivered h taken made report h') (ht : report.truncated = true) :
    cap ≤ delivered + report.deliveries := by
  induction hl with
  | idle => cases ht
  | full _ hcap => exact hcap
  | take _ _ _ ih =>
    rw [RunReport.followedBy_deliveries, ← Nat.add_assoc]
    exact ih ht

/-- Only the last signal may be delivered past the limit. -/
theorem exceeds (hl : Loop cap delivered h taken made report h') (hcap : delivered < cap) :
    delivered + report.deliveries < cap + h.sessions.length := by
  induction hl with
  | idle | full =>
    simp only [RunReport.ended]
    omega
  | @take delivered h h' signal rest taken made report hqueue hlt hrest ih =>
    have hround := serve_deliveries_le h signal rest
    have hsessions : (h.serve signal rest).2.sessions.length = h.sessions.length := by
      simpa [ids] using congrArg List.length (serve_ids h signal rest)
    rw [RunReport.followedBy_deliveries, ← Nat.add_assoc]
    by_cases hmore : delivered + (h.serve signal rest).1.deliveries < cap
    · rw [← hsessions]
      exact ih hmore
    · -- The limit is reached, so this signal was the last one.
      have hlast : report.deliveries = 0 := by
        cases hrest with
        | idle | full => rfl
        | take _ hmore' => exact absurd hmore' hmore
      omega

theorem deliveries_of_no_sessions (hl : Loop cap delivered h taken made report h')
    (hn : h.sessions = []) : report.deliveries = 0 := by
  induction hl with
  | idle | full => rfl
  | @take _ h _ signal rest _ _ _ _ _ _ ih =>
    have hround := serve_deliveries_le h signal rest
    have hids := serve_ids h signal rest
    simp only [hn, List.length_nil] at hround
    simp only [ids, hn, List.map_nil, List.map_eq_nil_iff] at hids
    rw [RunReport.followedBy_deliveries, ih hids]
    omega

theorem deliveries_of_no_limit (hl : Loop 0 delivered h taken made report h') :
    report.deliveries = 0 := by
  cases hl with
  | idle | full => rfl
  | take _ hlt => exact absurd hlt (Nat.not_lt_zero _)

end Loop

/-- Whatever the sessions do, the loop of a run ends, in the one way that the run reports. It is cut
off exactly where signals are left, which takes as many deliveries as the limit allows, and the
plan has nothing left to report. There is no delivery without sessions or without a limit to use
up, and otherwise only the last signal may be delivered past the limit. -/
theorem run_ends (h : Hub) :
    (∃ taken made, Loop h.config.maxDeliveries 0 h.pump.2 taken made h.runUntilIdle.1
      h.runUntilIdle.2) ∧
    (∀ taken made report h', Loop h.config.maxDeliveries 0 h.pump.2 taken made report h' →
      report = h.runUntilIdle.1 ∧ h' = h.runUntilIdle.2) ∧
    (h.runUntilIdle.1.truncated = true ↔ h.runUntilIdle.2.queue ≠ []) ∧
    h.runUntilIdle.2.plan.outbox = [] ∧
    (h.runUntilIdle.1.truncated = true → h.config.maxDeliveries ≤ h.runUntilIdle.1.deliveries) ∧
    (h.sessions.length = 0 ∨ h.config.maxDeliveries = 0 → h.runUntilIdle.1.deliveries = 0) ∧
    (h.sessions.length ≠ 0 → h.config.maxDeliveries ≠ 0 →
      h.runUntilIdle.1.deliveries ≤ h.config.maxDeliveries + h.sessions.length - 1) := by
  obtain ⟨taken, made, hl⟩ := run_loop h
  refine ⟨⟨taken, made, hl⟩, ?_, hl.truncated_iff, hl.outbox (pump_outbox h), ?_, ?_, ?_⟩
  · intro taken' made' report' h' hl'
    obtain ⟨_, _, hreport, hhub⟩ := hl'.unique hl
    exact ⟨hreport, hhub⟩
  · intro ht
    simpa using hl.reaches ht
  · rintro (hn | hcap)
    · exact hl.deliveries_of_no_sessions (List.length_eq_zero_iff.mp hn)
    · rw [hcap] at hl
      exact hl.deliveries_of_no_limit
  · intro _ hcap
    have hbound := hl.exceeds (Nat.pos_of_ne_zero hcap)
    have hsessions : h.pump.2.sessions.length = h.sessions.length := rfl
    omega

end Hub

end Conductor
