import Conductor.Proofs.Hub.Counting
import Conductor.Proofs.Session.Tally
import Mathlib.Algebra.GroupWithZero.Nat
import Mathlib.Data.List.Nodup

/-!
What the sessions of a hub count in the course of a run: the deliveries that the run reports, and
again each fault that had waited in a session and has its turn while a signal is handled.
-/

namespace Conductor

theorem Session.Reachable.caught {s : Session} (h : s.Reachable) (p : Plan) :
    Scene.Caught ⟨s, p⟩ := by
  induction h generalizing p with
  | unstarted hs => exact (hs.kempt p).caught
  | call q call hreachable ih => exact (Scene.call_waiting (ih q) (hreachable.sound q) call).1
  | taken _ ih => exact ih p

/-- The faults that waited and have their turn in the course of a delivery. -/
def Delivery.takenUp (d : Delivery) : List Fault := d.scene.takenUpBy d.signal

namespace Hub

variable {h h' : Hub} {signal : Signal} {cap delivered : Nat}

/-- What the sessions have counted, all in all. -/
def tally (h : Hub) : Nat := (h.sessions.map Session.deliveries).sum

/-- Sessions that calls led to, each under a name of its own. -/
structure Manned (h : Hub) : Prop where
  ids : h.ids.Nodup
  reachable : ∀ s ∈ h.sessions, s.Reachable

theorem Manned.eq_of_id (hm : h.Manned) {s t : Session} (hs : s ∈ h.sessions)
    (ht : t ∈ h.sessions) (hid : s.id = t.id) : s = t :=
  List.inj_on_of_nodup_map hm.ids hs ht hid

/-- Whoever wants a signal runs. -/
theorem Manned.target_running (hm : h.Manned) {id : String} (hid : id ∈ h.targets signal)
    {s : Session} (hs : h.session? id = some s) : s.isRunning = true := by
  obtain ⟨t, ht, rfl⟩ := List.mem_map.mp hid
  obtain ⟨hmem, hwants⟩ := List.mem_filter.mp ht
  obtain rfl := hm.eq_of_id (session?_mem hs) hmem (session?_id hs)
  exact (Bool.and_eq_true_iff.mp hwants).1

/-- Putting a session back leaves the others where they are. -/
theorem put_session? (h : Hub) (c : Scene) {id : String} (hid : id ≠ c.session.id) :
    (h.put c).session? id = h.session? id := by
  unfold session? put
  induction h.sessions with
  | nil => rfl
  | cons s rest ih =>
    simp only [List.map_cons, List.find?_cons]
    rw [ih]
    by_cases hs : s.id = c.session.id
    · have hother : (c.session.id == id) = false := by simpa using Ne.symm hid
      rw [if_pos hs, hs, hother]
    · rw [if_neg hs]

theorem settle_session? (h : Hub) (c : Scene) {id : String} (hid : id ≠ c.session.id) :
    (h.settle c).session? id = h.session? id := by
  obtain ⟨_, _, hsettle⟩ := h.settle_eq c
  rw [hsettle]
  exact put_session? h { c with session := c.session.takeInterestChanges.2 } hid

theorem settle_tally (hids : h.ids.Nodup) {s : Session} (hs : s ∈ h.sessions) {c : Scene}
    (hc : c.session.id = s.id) :
    (h.settle c).tally + s.deliveries = h.tally + c.session.deliveries := by
  obtain ⟨_, _, hsettle⟩ := h.settle_eq c
  obtain ⟨before, after, hsplit, hput⟩ := put_sessions hids hs
  have hsessions : (h.settle c).sessions = before ++ c.session.takeInterestChanges.2 :: after := by
    rw [hsettle]
    exact hput { c with session := c.session.takeInterestChanges.2 } hc
  have hsame : c.session.takeInterestChanges.2.deliveries = c.session.deliveries := rfl
  simp only [tally, hsessions, hsplit, List.map_append, List.map_cons, List.sum_append,
    List.sum_cons, hsame]
  omega

theorem Manned.settle (hm : h.Manned) {c : Scene} (hc : c.session.Reachable) :
    (h.settle c).Manned := by
  refine ⟨(Kept.settle h c).ids ▸ hm.ids, ?_⟩
  obtain ⟨_, _, hsettle⟩ := h.settle_eq c
  rw [hsettle]
  intro s hs
  obtain ⟨t, ht, rfl⟩ := List.mem_map.mp hs
  split
  · exact hc.taken
  · exact hm.reachable t ht

/-- A delivery to a session that runs counts, and so do the faults that have their turn in it. No
other session is touched. -/
theorem deliverTo_tally (hm : h.Manned) {id : String} {s : Session} (hid : h.session? id = some s)
    (hr : s.isRunning = true) (signal : Signal) :
    (h.deliverTo signal id).2.tally =
      h.tally + 1 + (Delivery.takenUp ⟨signal, s, h.plan⟩).length ∧
    (h.deliverTo signal id).2.Manned ∧
    ∀ other, other ≠ id → (h.deliverTo signal id).2.session? other = h.session? other := by
  obtain ⟨_, hsettle⟩ : _ ∧ (h.deliverTo signal id).2 = _ := deliverTo_some hid
  have hmem := session?_mem hid
  have hreachable := hm.reachable s hmem
  have hkept : (Scene.deliver ⟨s, h.plan⟩ signal).2.session.id = s.id :=
    Scene.call_id (hreachable.sound h.plan) (.deliver signal)
  rw [hsettle]
  refine ⟨?_, hm.settle (hreachable.call h.plan (.deliver signal)), fun other hother => ?_⟩
  · have hcounted : (Scene.deliver ⟨s, h.plan⟩ signal).2.session.deliveries =
        s.deliveries + 1 + (Delivery.takenUp ⟨signal, s, h.plan⟩).length :=
      Scene.deliver_deliveries (hreachable.caught h.plan) hr signal
    have hsettled := settle_tally hm.ids hmem hkept
    omega
  · refine settle_session? h _ ?_
    rwa [hkept, session?_id hid]

theorem deliverAll_tally (signal : Signal) {targets : List String} (hm : h.Manned)
    (ht : targets.Nodup)
    (hr : ∀ id ∈ targets, ∀ s, h.session? id = some s → s.isRunning = true) :
    (deliverAll signal targets h).2.tally = h.tally + (deliverAll signal targets h).1.deliveries +
        ((deliveries signal targets h).flatMap Delivery.takenUp).length ∧
      (deliverAll signal targets h).2.Manned := by
  induction targets generalizing h with
  | nil => exact ⟨rfl, hm⟩
  | cons id rest ih =>
    obtain ⟨hnew, hrest⟩ := List.nodup_cons.mp ht
    rw [deliverAll_cons]
    cases hid : h.session? id with
    | none =>
      rw [deliveries_none hid, deliverTo_none hid, RunReport.followedBy_deliveries]
      obtain ⟨htally, hm'⟩ := ih hm hrest fun id hid => hr id (List.mem_cons_of_mem _ hid)
      refine ⟨?_, hm'⟩
      show _ = h.tally + (0 + _) + _
      rw [htally, Nat.zero_add]
    | some s =>
      obtain ⟨hcounted, hmanned, hothers⟩ :=
        deliverTo_tally hm hid (hr id List.mem_cons_self s hid) signal
      -- Whoever is still to be told runs as before.
      have hr' : ∀ other ∈ rest, ∀ t, (h.deliverTo signal id).2.session? other = some t →
          t.isRunning = true := by
        intro other hother t hfound
        have hne : other ≠ id := fun heq => hnew (heq ▸ hother)
        rw [hothers other hne] at hfound
        exact hr other (List.mem_cons_of_mem _ hother) t hfound
      obtain ⟨htally, hm'⟩ := ih hmanned hrest hr'
      refine ⟨?_, hm'⟩
      rw [deliveries_some hid, RunReport.followedBy_deliveries, (deliverTo_some hid).1,
        List.flatMap_cons, List.length_append]
      show (deliverAll signal rest (h.deliverTo signal id).2).2.tally = _
      omega

theorem serve_tally (hm : h.Manned) (signal : Signal) (rest : List Signal) :
    (h.serve signal rest).2.tally = h.tally + (h.serve signal rest).1.deliveries +
        ((h.served signal rest).flatMap Delivery.takenUp).length ∧
      (h.serve signal rest).2.Manned := by
  have hm' : { h with queue := rest }.Manned := ⟨hm.ids, hm.reachable⟩
  obtain ⟨htally, hmanned⟩ := deliverAll_tally signal hm'
    ((h.targets_sublist signal).nodup hm.ids) fun _ hid _ hs => hm.target_running hid hs
  exact ⟨htally, hmanned.ids, hmanned.reachable⟩

theorem Loop.tally {taken : List Signal} {made : List Delivery} {report : RunReport}
    (hl : Loop cap delivered h taken made report h') (hm : h.Manned) :
    h'.tally = h.tally + report.deliveries + (made.flatMap Delivery.takenUp).length ∧
      h'.Manned := by
  induction hl with
  | idle | full => exact ⟨rfl, hm⟩
  | @take _ h h' signal rest _ _ _ _ _ _ ih =>
    obtain ⟨hserved, hmanned⟩ := serve_tally hm signal rest
    obtain ⟨hlater, hm'⟩ := ih hmanned
    refine ⟨?_, hm'⟩
    rw [RunReport.followedBy_deliveries, List.flatMap_append, List.length_append]
    omega

/-! ## Hubs that are manned -/

theorem Manned.add (hm : h.Manned) {s : Session} (hs : s.Reachable) (hnew : s.id ∉ h.ids) :
    (h.add s).Manned := by
  refine ⟨nodup_ids_add hm.ids hnew, ?_⟩
  rw [add_of_new hnew]
  intro t ht
  rcases List.mem_append.mp ht with ht | ht
  · exact hm.reachable t ht
  · exact List.mem_singleton.mp ht ▸ hs

theorem Manned.start (hm : h.Manned) (id : String) : (h.start id).2.Manned := by
  unfold Hub.start
  split
  · exact hm
  · rename_i s hs
    exact hm.settle ((hm.reachable s (session?_mem hs)).call h.plan .start)

theorem Manned.stop (hm : h.Manned) (id : String) : (h.stop id).2.Manned := by
  unfold Hub.stop
  split
  · exact hm
  · rename_i s hs
    exact hm.settle ((hm.reachable s (session?_mem hs)).call h.plan .stop)

theorem Manned.of_sublist (hm : h.Manned) (hs : h'.sessions.Sublist h.sessions) : h'.Manned :=
  ⟨hm.ids.sublist (hs.map Session.id), fun s hmem => hm.reachable s (hs.subset hmem)⟩

/-- Whatever is done with a hub, it stays manned. -/
theorem Reached.manned {plan : Plan} (hr : Reached plan h) : h.Manned := by
  induction hr with
  | new config => exact ⟨List.nodup_nil, fun s hs => absurd hs List.not_mem_nil⟩
  | add _ hs _ hnew ih => exact ih.add (.unstarted hs) hnew
  | arrange _ hperm ih =>
    exact ⟨(hperm.map Session.id).nodup_iff.mpr ih.ids,
      fun s hs => ih.reachable s (hperm.mem_iff.mp hs)⟩
  | start id _ ih => exact ih.start id
  | stop id _ ih => exact ih.stop id
  | post | pump | drive => rename_i ih; exact ⟨ih.ids, ih.reachable⟩
  | reap _ ih =>
    refine ih.of_sublist ?_
    rw [Hub.reap, List.partition_eq_filter_filter]
    exact List.filter_sublist
  | @run h _ ih =>
    obtain ⟨_, _, hl⟩ := h.run_loop
    have hpumped : h.pump.2.Manned := ⟨ih.ids, ih.reachable⟩
    exact (hl.tally hpumped).2

end Hub

theorem Session.Unstarted.uncounted {root : Handle} {s : Session} (h : s.Unstarted root) :
    s.deliveries = 0 := by
  induction h with
  | new => rfl
  | withConfig _ _ ih | withCatalog _ _ ih | withTable _ _ ih => exact ih

/-- A session counts each signal that it is told of while it runs, and besides each fault that has
its turn after it has waited. Such a fault was queued by one of the calls, where it counted, and it
has one turn at most, in the order in which the faults came. So the sessions of a hub count in a run
what the run reports as deliveries, and the faults that have their turn in the course of them. -/
theorem counted_with_turns {root : Handle} {s : Session} (hs : s.Unstarted root) (p : Plan)
    (calls : List Call) {h : Hub} (hm : h.Manned) :
    let c : Scene := ⟨s, p⟩
    (c.after calls).session.deliveries =
      (c.along Scene.toldBy calls).length + (c.along Scene.turnsOf calls).length ∧
    (c.along Scene.turnsOf calls ++ (c.after calls).session.faults.pending).Sublist
      (c.along Scene.queuedBy calls) ∧
    ∃ taken made,
      Hub.Loop h.config.maxDeliveries 0 h.pump.2 taken made h.runUntilIdle.1 h.runUntilIdle.2 ∧
      h.runUntilIdle.2.tally = h.tally + h.runUntilIdle.1.deliveries +
        (made.flatMap Delivery.takenUp).length := by
  intro c
  have hcaught : c.Caught := (hs.kempt p).caught
  have hsound : c.Sound := hs.fresh.sound p
  have hpending : c.session.faults.pending = [] := hs.fresh.pending
  have hnone : c.session.deliveries = 0 := hs.uncounted
  refine ⟨?_, ?_, ?_⟩
  · rw [Scene.after_deliveries hcaught hsound calls, hnone, Nat.zero_add]
  · simpa only [hpending, List.nil_append] using Scene.after_left hcaught hsound calls
  · obtain ⟨taken, made, hl⟩ := Hub.run_loop h
    have hpumped : h.pump.2.Manned := ⟨hm.ids, hm.reachable⟩
    exact ⟨taken, made, hl, (hl.tally hpumped).1⟩

/-- A handler starts, and another fault is put behind it. -/
def Call.twoFaults : List Call := [.start, .deliver (.fault .sample), .deliver (.fault .sample)]

/-- A session of which the handler is active while another fault waits, in a hub that is about to
tell it that the handler may go on. -/
def Hub.besieged : Hub :=
  let c := Scene.after ⟨Session.sample.withTable .sample, .sample⟩ Call.twoFaults
  { (Hub.new c.plan.poll.2).add c.session with queue := [.event .go] }

theorem Hub.besieged_manned : Hub.besieged.Manned := by
  have hs : (Session.sample.withTable .sample).Unstarted .sample :=
    .withTable .sample Session.sample_unstarted
  refine ⟨List.nodup_singleton _, fun s hmem => ?_⟩
  obtain rfl := List.mem_singleton.mp hmem
  exact (Session.Reachable.unstarted hs).after .sample Call.twoFaults

/-- The handler of the first fault is told to go on and comes to its end. The second fault has its
turn then, which counts once more. -/
theorem counted_with_turns_queued :
    let calls := Call.twoFaults ++ [.deliver (.event .go)]
    let c : Scene := ⟨Session.sample.withTable .sample, .sample⟩
    (c.along Scene.toldBy calls).length = 3 ∧ c.along Scene.turnsOf calls = [.sample] ∧
      (c.after calls).session.deliveries = 4 ∧ Hub.besieged.tally = 2 ∧
      Hub.besieged.runUntilIdle.1.deliveries = 1 ∧
      ∃ made : List Delivery, Hub.besieged.runUntilIdle.2.tally =
        3 + (made.flatMap Delivery.takenUp).length := by
  intro calls c
  have hs : (Session.sample.withTable .sample).Unstarted .sample :=
    .withTable .sample Session.sample_unstarted
  obtain ⟨hcounted, _, taken, made, _, htally⟩ :=
    counted_with_turns hs .sample calls Hub.besieged_manned
  have htold : (c.along Scene.toldBy calls).length = 3 := by decide +kernel
  have hturns : c.along Scene.turnsOf calls = [.sample] := by decide +kernel
  have hbefore : Hub.besieged.tally = 2 := by decide +kernel
  have hreported : Hub.besieged.runUntilIdle.1.deliveries = 1 := by decide +kernel
  refine ⟨htold, hturns, ?_, hbefore, hreported, made, ?_⟩
  · rw [hcounted, htold, hturns]
    rfl
  · rw [htally, hbefore, hreported]

/-- A session that was told of three signals while it ran counts four, and the sessions of a hub
count two more in a run that reports one delivery. -/
theorem counted_again_in_turn :
    let calls := Call.twoFaults ++ [.deliver (.event .go)]
    let c : Scene := ⟨Session.sample.withTable .sample, .sample⟩
    (c.along Scene.toldBy calls).length = 3 ∧ (c.after calls).session.deliveries = 4 ∧
      Hub.besieged.runUntilIdle.1.deliveries = 1 ∧
      Hub.besieged.runUntilIdle.2.tally = Hub.besieged.tally + 2 := by
  decide +kernel

end Conductor
