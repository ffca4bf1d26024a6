import Conductor.Proofs.Hub.Loop
import Mathlib.Algebra.GroupWithZero.Nat

/-!
The order of signals. What a run takes off and what it leaves are the signals that were queued,
those that the plan had to report, and those that it sent in the course of the run, in this order.
A run that is cut off can be taken up where it stopped: runs in turn come to the same as one run
that is not cut off.
-/

namespace Conductor

/-- What plans sent in the course of deliveries, in order. -/
inductive Sent : List Delivery → List Signal → Prop where
  | nil : Sent [] []
  | cons {d : Delivery} {made : List Delivery} {sent later : List Signal} :
    d.scene.plan.Sends sent d.handled.plan → Sent made later → Sent (d :: made) (sent ++ later)

theorem Sent.append {made made' : List Delivery} {sent sent' : List Signal} (h : Sent made sent)
    (h' : Sent made' sent') : Sent (made ++ made') (sent ++ sent') := by
  induction h with
  | nil => exact h'
  | cons hd _ ih =>
    rw [List.append_assoc]
    exact .cons hd ih

namespace RunReport

theorem ended_followedBy (truncated : Bool) (r : RunReport) :
    (ended truncated).followedBy r = r := by
  simp [followedBy, ended]

theorem followedBy_assoc (a b c : RunReport) :
    (a.followedBy b).followedBy c = a.followedBy (b.followedBy c) := by
  simp [followedBy, Nat.add_assoc]

/-- The report on runs in turn as if they were one. -/
def total (reports : List RunReport) : RunReport := reports.foldr followedBy (ended false)

theorem total_eq (reports : List RunReport) :
    total reports = ⟨(reports.map signals).sum, (reports.map deliveries).sum,
      (reports.map outcomes).flatten, false⟩ := by
  induction reports with
  | nil => rfl
  | cons r rest ih =>
    show r.followedBy (total rest) = _
    rw [ih]
    rfl

end RunReport

namespace Hub

variable {h h' : Hub} {signal : Signal} {cap delivered : Nat}

/-! ## Signals sent -/

theorem settle_outbox (h : Hub) (c : Scene) : (h.settle c).plan.outbox = c.plan.outbox := by
  obtain ⟨_, _, hsettle⟩ := h.settle_eq c
  rw [hsettle]

theorem settle_hosted {c : Scene} (hs : ∀ s ∈ h.sessions, s.Hosted)
    (hc : c.session.Hosted) : ∀ s ∈ (h.settle c).sessions, s.Hosted := by
  obtain ⟨_, _, hsettle⟩ := h.settle_eq c
  rw [hsettle]
  intro s hmem
  obtain ⟨t, ht, rfl⟩ := List.mem_map.mp hmem
  split
  · exact hc.taken
  · exact hs t ht

/-- While a signal is delivered, what the plan sends waits behind what it had to report before. -/
theorem deliverAll_sent (signal : Signal) (targets : List String)
    (hs : ∀ s ∈ h.sessions, s.Hosted) :
    ∃ sent, Sent (deliveries signal targets h) sent ∧
      (deliverAll signal targets h).2.plan.outbox = h.plan.outbox ++ sent ∧
      ∀ s ∈ (deliverAll signal targets h).2.sessions, s.Hosted := by
  induction targets generalizing h with
  | nil => exact ⟨[], .nil, (List.append_nil _).symm, hs⟩
  | cons id rest ih =>
    rw [deliverAll_cons]
    cases hid : h.session? id with
    | none =>
      rw [deliveries_none hid, deliverTo_none hid]
      exact ih hs
    | some s =>
      have hhosted := hs s (session?_mem hid)
      have hcall : ∀ command, Call.deliver signal ≠ .drive command := fun _ => nofun
      obtain ⟨first, hfirst⟩ := hhosted.asked h.plan hcall
      have hsettled : ∀ t ∈ (h.deliverTo signal id).2.sessions, t.Hosted := by
        rw [(deliverTo_some hid).2]
        exact settle_hosted hs (hhosted.call h.plan (.deliver signal))
      have houtbox : (h.deliverTo signal id).2.plan.outbox = h.plan.outbox ++ first := by
        rw [(deliverTo_some hid).2, settle_outbox]
        exact hfirst.outbox
      obtain ⟨later, hlater, hrest, hkept⟩ := ih hsettled
      rw [deliveries_some hid]
      refine ⟨first ++ later, .cons hfirst hlater, ?_, hkept⟩
      rw [hrest, houtbox, List.append_assoc]

/-- Once a signal is handled, what the plan sent meanwhile is queued behind the others. -/
theorem serve_sent (signal : Signal) (rest : List Signal) (hs : ∀ s ∈ h.sessions, s.Hosted)
    (hq : h.plan.outbox = []) :
    ∃ sent, Sent (h.served signal rest) sent ∧ (h.serve signal rest).2.queue = rest ++ sent ∧
      ∀ s ∈ (h.serve signal rest).2.sessions, s.Hosted := by
  obtain ⟨sent, hsent, houtbox, hkept⟩ :=
    deliverAll_sent (h := { h with queue := rest }) signal (h.targets signal) hs
  have hqueue := (Kept.deliverAll signal (h.targets signal) { h with queue := rest }).queue
  refine ⟨sent, hsent, ?_, hkept⟩
  show (deliverAll signal (h.targets signal) { h with queue := rest }).2.queue ++
    (deliverAll signal (h.targets signal) { h with queue := rest }).2.plan.outbox = rest ++ sent
  rw [hqueue, houtbox, hq, List.nil_append]

namespace Loop

variable {taken taken' : List Signal} {made made' : List Delivery} {report report' : RunReport}
  {h'' : Hub}

/-- The signals taken and those left are the ones that were queued and then the ones sent. -/
theorem order (hl : Loop cap delivered h taken made report h')
    (hs : ∀ s ∈ h.sessions, s.Hosted) (hq : h.plan.outbox = []) :
    ∃ sent, Sent made sent ∧ taken ++ h'.queue = h.queue ++ sent := by
  induction hl with
  | idle hqueue => exact ⟨[], .nil, by simp [hqueue]⟩
  | full => exact ⟨[], .nil, by simp⟩
  | @take _ h h' signal rest taken made _ hqueue _ _ ih =>
    obtain ⟨sent, hsent, hbehind, hkept⟩ := serve_sent signal rest hs hq
    obtain ⟨later, hlater, horder⟩ := ih hkept (serve_outbox ..)
    refine ⟨sent ++ later, hsent.append hlater, ?_⟩
    calc
      signal :: taken ++ h'.queue = signal :: ((rest ++ sent) ++ later) := by
        rw [List.cons_append, horder, hbehind]
      _ = h.queue ++ (sent ++ later) := by
        rw [hqueue, List.append_assoc, List.cons_append]

end Loop

/-! ## Limits -/

/-- A hub with another limit of deliveries. -/
def withLimit (h : Hub) (cap : Nat) : Hub := { h with config := ⟨cap⟩ }

theorem count_withLimit (h : Hub) (cap : Nat) (change : InterestChange) :
    (h.withLimit cap).count change = (h.count change).withLimit cap := by
  cases change with
  | subscribe task event =>
    by_cases hn : (h.interest.get? (task, event)).getD 0 = 0
    · simp [count, withLimit, hn]
    · simp [count, withLimit, hn]
  | unsubscribe task event =>
    cases hn : h.interest.get? (task, event) with
    | none => simp [count, withLimit, hn]
    | some n => by_cases hlast : n ≤ 1 <;> simp [count, withLimit, hn, hlast]

theorem settle_withLimit (h : Hub) (cap : Nat) (c : Scene) :
    (h.withLimit cap).settle c = (h.settle c).withLimit cap := by
  let before := h.put { c with session := c.session.takeInterestChanges.2 }
  show c.session.takeInterestChanges.1.foldl count (before.withLimit cap) =
    (c.session.takeInterestChanges.1.foldl count before).withLimit cap
  exact List.foldl_hom (withLimit · cap) fun h change => count_withLimit h cap change

theorem deliverTo_withLimit (h : Hub) (cap : Nat) (signal : Signal) (id : String) :
    (h.withLimit cap).deliverTo signal id =
      ((h.deliverTo signal id).1, (h.deliverTo signal id).2.withLimit cap) := by
  cases hs : h.session? id with
  | none =>
    have hs' : (h.withLimit cap).session? id = none := hs
    rw [deliverTo_none hs, deliverTo_none hs']
  | some s =>
    have hs' : (h.withLimit cap).session? id = some s := hs
    simp only [deliverTo, hs, hs', settle_withLimit]
    rfl

theorem deliverAll_withLimit (h : Hub) (cap : Nat) (signal : Signal) (targets : List String) :
    deliverAll signal targets (h.withLimit cap) =
      ((deliverAll signal targets h).1, (deliverAll signal targets h).2.withLimit cap) := by
  induction targets generalizing h with
  | nil => rfl
  | cons id rest ih => rw [deliverAll_cons, deliverTo_withLimit, ih, deliverAll_cons]

theorem deliveries_withLimit (h : Hub) (cap : Nat) (signal : Signal) (targets : List String) :
    deliveries signal targets (h.withLimit cap) = deliveries signal targets h := by
  induction targets generalizing h with
  | nil => rfl
  | cons id rest ih =>
    simp only [deliveries, deliverTo_withLimit, ih]
    rfl

/-- The limit has no part in how a signal is handled. -/
theorem serve_withLimit (h : Hub) (cap : Nat) (signal : Signal) (rest : List Signal) :
    (h.withLimit cap).serve signal rest =
        ((h.serve signal rest).1, (h.serve signal rest).2.withLimit cap) ∧
      (h.withLimit cap).served signal rest = h.served signal rest := by
  have hall := deliverAll_withLimit { h with queue := rest } cap signal (h.targets signal)
  have hbefore : { h.withLimit cap with queue := rest } =
      { h with queue := rest }.withLimit cap := rfl
  have htargets : (h.withLimit cap).targets signal = h.targets signal := rfl
  unfold serve served
  rw [htargets, hbefore, hall, deliveries_withLimit]
  exact ⟨rfl, rfl⟩

namespace Loop

variable {taken taken' : List Signal} {made made' : List Delivery} {report report' : RunReport}
  {h'' : Hub}

theorem withLimit (hl : Loop cap delivered h taken made report h') (limit : Nat) :
    Loop cap delivered (h.withLimit limit) taken made report (h'.withLimit limit) := by
  induction hl with
  | idle hqueue => exact .idle hqueue
  | full hne hcap => exact .full hne hcap
  | @take _ h _ signal rest _ _ _ hqueue hlt _ ih =>
    obtain ⟨hserve, hserved⟩ := serve_withLimit h limit signal rest
    have hqueue' : (h.withLimit limit).queue = signal :: rest := hqueue
    have htake := Loop.take hqueue' hlt (by rw [hserve]; exact ih)
    rw [hserve, hserved] at htake
    exact htake

end Loop

/-! ## Runs in turn -/

/-- The loop without a limit, which goes on until no signal is left. -/
inductive Drained : Hub → List Signal → List Delivery → RunReport → Hub → Prop where
  | idle {h : Hub} : h.queue = [] → Drained h [] [] (.ended false) h
  | take {h h' : Hub} {signal : Signal} {rest taken : List Signal} {made : List Delivery}
      {report : RunReport} : h.queue = signal :: rest →
    Drained (h.serve signal rest).2 taken made report h' →
    Drained h (signal :: taken) (h.served signal rest ++ made)
      ((h.serve signal rest).1.followedBy report) h'

/-- There is one way to go on until no signal is left. -/
theorem Drained.unique {h₁ h₂ : Hub} {taken taken' : List Signal} {made made' : List Delivery}
    {report report' : RunReport} (hd : Drained h taken made report h₁)
    (hd' : Drained h taken' made' report' h₂) : report = report' ∧ h₁ = h₂ := by
  induction hd generalizing taken' made' report' h₂ with
  | idle hqueue =>
    cases hd' with
    | idle => exact ⟨rfl, rfl⟩
    | take hqueue' => simp [hqueue] at hqueue'
  | take hqueue _ ih =>
    cases hd' with
    | idle hqueue' => simp [hqueue] at hqueue'
    | take hqueue' hrest =>
      rw [hqueue] at hqueue'
      cases hqueue'
      obtain ⟨rfl, rfl⟩ := ih hrest
      exact ⟨rfl, rfl⟩

/-- What a loop with a limit has begun can be brought to its end. -/
theorem Loop.drained {h'' : Hub} {taken taken' : List Signal} {made made' : List Delivery}
    {report report' : RunReport} (hl : Loop cap delivered h taken made report h')
    (hd : Drained h' taken' made' report' h'') :
    Drained h (taken ++ taken') (made ++ made') (report.followedBy report') h'' := by
  induction hl with
  | idle | full =>
    rw [RunReport.ended_followedBy]
    exact hd
  | take hqueue _ _ ih =>
    rw [RunReport.followedBy_assoc, List.cons_append, List.append_assoc]
    exact .take hqueue (ih hd)

/-- Runs in turn, each with a limit of its own. -/
def runs : List Nat → Hub → List RunReport × Hub
  | [], h => ([], h)
  | cap :: rest, h =>
    let (report, h) := (h.withLimit cap).runUntilIdle
    let (later, h) := runs rest h
    (report :: later, h)

/-- Runs in turn of which the last is not cut off take every signal there is. -/
theorem runs_drained {caps : List Nat}
    (hend : (runs caps h).1.getLast?.map RunReport.truncated = some false) :
    ∃ taken made, Drained (h.pump.2.withLimit 0) taken made (.total (runs caps h).1)
      ((runs caps h).2.withLimit 0) := by
  -- Hubs of different limits are compared under the limit 0, which the loop does not look at.
  induction caps generalizing h with
  | nil => cases hend
  | cons cap rest ih =>
    obtain ⟨taken, made, hl⟩ := run_loop (h.withLimit cap)
    have hfirst : Loop cap 0 (h.pump.2.withLimit 0) taken made _ _ := hl.withLimit 0
    cases rest with
    | nil =>
      have hqueue : ((h.withLimit cap).runUntilIdle.2.withLimit 0).queue = [] := by
        have htruncated : (h.withLimit cap).runUntilIdle.1.truncated = false := by
          simpa [runs] using hend
        by_contra hne
        rw [hl.truncated_iff.mpr hne] at htruncated
        cases htruncated
      exact ⟨_, _, hfirst.drained (.idle hqueue)⟩
    | cons next rest =>
      have hquiet : (h.withLimit cap).runUntilIdle.2.plan.outbox = [] :=
        hl.outbox (pump_outbox _)
      have hend' : (runs (next :: rest) (h.withLimit cap).runUntilIdle.2).1.getLast?.map
          RunReport.truncated = some false := by
        simpa [runs] using hend
      obtain ⟨taken', made', hlater⟩ := ih hend'
      rw [pump_of_quiet hquiet] at hlater
      exact ⟨_, _, hfirst.drained hlater⟩

/-- In a run the signals taken off, and then those left, are the ones that were queued, then the
ones that the plan had to report, and then the ones that it sent during the deliveries of the run,
in order. And whatever the limits of runs in turn are, if the last of them is not cut off they lead
to the same sessions, plan, queue and interests as a single run that is not cut off, and report the
same together. -/
theorem runs_in_order (hs : ∀ s ∈ h.sessions, s.Hosted) :
    (∃ taken made sent,
      Loop h.config.maxDeliveries 0 h.pump.2 taken made h.runUntilIdle.1 h.runUntilIdle.2 ∧
      h.runUntilIdle.1.signals = taken.length ∧ Sent made sent ∧
      taken ++ h.runUntilIdle.2.queue = h.queue ++ h.plan.outbox ++ sent) ∧
    ∀ caps cap, (runs caps h).1.getLast?.map RunReport.truncated = some false →
      (h.withLimit cap).runUntilIdle.1.truncated = false →
      (runs caps h).2.sessions = (h.withLimit cap).runUntilIdle.2.sessions ∧
      (runs caps h).2.plan = (h.withLimit cap).runUntilIdle.2.plan ∧
      (runs caps h).2.queue = (h.withLimit cap).runUntilIdle.2.queue ∧
      (runs caps h).2.interest = (h.withLimit cap).runUntilIdle.2.interest ∧
      ((runs caps h).1.map RunReport.outcomes).flatten =
        (h.withLimit cap).runUntilIdle.1.outcomes ∧
      ((runs caps h).1.map RunReport.signals).sum = (h.withLimit cap).runUntilIdle.1.signals ∧
      ((runs caps h).1.map RunReport.deliveries).sum =
        (h.withLimit cap).runUntilIdle.1.deliveries := by
  constructor
  · obtain ⟨taken, made, hl⟩ := run_loop h
    obtain ⟨sent, hsent, horder⟩ := hl.order hs (pump_outbox h)
    exact ⟨taken, made, sent, hl, hl.signals, hsent, horder⟩
  · intro caps cap hend hcap
    have hone : (runs [cap] h).1.getLast?.map RunReport.truncated = some false := by
      simpa [runs] using hcap
    obtain ⟨_, _, hmany⟩ := runs_drained hend
    obtain ⟨_, _, hsingle⟩ := runs_drained hone
    obtain ⟨hreport, hhub⟩ := hmany.unique hsingle
    rw [RunReport.total_eq, RunReport.total_eq, RunReport.mk.injEq] at hreport
    obtain ⟨hsignals, hdeliveries, houtcomes, _⟩ := hreport
    have hsessions := congrArg Hub.sessions hhub
    have hplan := congrArg Hub.plan hhub
    have hqueue := congrArg Hub.queue hhub
    have hinterest := congrArg Hub.interest hhub
    refine ⟨hsessions, hplan, hqueue, hinterest, ?_, ?_, ?_⟩
    · simpa [runs] using houtcomes
    · simpa [runs] using hsignals
    · simpa [runs] using hdeliveries

/-- A hub in which a task has been started and, as it is heard first, has succeeded. -/
def sample : Hub :=
  let c := Scene.call ⟨.sample, .sample⟩ .start
  ⟨c.plan, [c.session], [.event ⟨Plan.idOf 2, .success, none⟩], .empty, {}⟩

theorem sample_hosted : ∀ s ∈ sample.sessions, s.Hosted := by
  intro s hs
  obtain rfl := List.mem_singleton.mp hs
  exact Session.sample_hosted.call .sample .start

theorem runs_in_order_sample :
    (runs [1, 1] sample).1.map RunReport.truncated = [true, false] ∧
    (runs [1, 1] sample).2.sessions = (sample.withLimit 2).runUntilIdle.2.sessions ∧
    ∃ taken made sent,
      Loop 10000 0 sample.pump.2 taken made sample.runUntilIdle.1 sample.runUntilIdle.2 ∧
      taken.length = 2 ∧ Sent made sent ∧
      taken ++ sample.runUntilIdle.2.queue = sample.queue ++ sample.plan.outbox ++ sent := by
  obtain ⟨⟨taken, made, sent, hl, hsignals, hsent, horder⟩, hlimits⟩ :=
    runs_in_order (h := sample) sample_hosted
  refine ⟨by decide, (hlimits [1, 1] 2 (by decide) (by decide)).1, taken, made, sent, hl, ?_,
    hsent, horder⟩
  rw [← hsignals]
  decide

end Hub

end Conductor
