import Conductor.Proofs.Session.Queue

/-!
Precedence among faults. A fault that waits came behind a handler that was at least as urgent as
the response selected for it. Urgencies are compared on arrival only: a handler that comes to its
end may leave its place to a less urgent one, the next in the queue or the next one outwards, and
then a fault waits behind a handler that it would have displaced.
-/

namespace Conductor

namespace Dispatch

variable {d : Dispatch} {f : Fault} {inReach : Reach → Bool}

theorem decide_eq_queue_iff : d.decide f inReach = .queue ↔ ∃ target active,
    d.selectFrom f 0 inReach = some target ∧ d.active = some active ∧
      target.response.priority ≤ active.priority := by
  unfold decide
  split
  · rename_i hs
    simp [hs]
  · rename_i target hs ha
    simp [ha]
  · rename_i target active hs ha
    split
    · simp [hs, ha]
      omega
    · simp [hs, ha]
      omega

theorem decide_eq_preempt_iff {target : Target} : d.decide f inReach = .preempt target ↔
    d.selectFrom f 0 inReach = some target ∧ ∃ active, d.active = some active ∧
      active.priority < target.response.priority := by
  unfold decide
  split
  · rename_i hs
    simp [hs]
  · rename_i selected hs ha
    simp [ha]
  · rename_i selected active hs ha
    split
    · rename_i h
      simp only [Decision.preempt.injEq, hs, Option.some.injEq, ha, exists_eq_left']
      exact ⟨fun he => ⟨he, he ▸ h⟩, And.left⟩
    · rename_i h
      simp only [reduceCtorEq, hs, Option.some.injEq, ha, exists_eq_left', false_iff]
      rintro ⟨rfl, hlt⟩
      exact h hlt

end Dispatch

namespace Scene

variable {c : Scene} {f : Fault}

/-- A fault would take the place of the active handler. -/
def Outranks (c : Scene) (f : Fault) : Prop :=
  ∃ target, c.session.faults.decide f (c.session.inReach f) = .preempt target

/-- A handler comes to its end in a call: the active one on an event, or at its start the one that
is to take its place. -/
def HandsOver (c : Scene) : Call → Prop
  | .deliver (.event e) => ∃ active, c.session.faults.active = some active ∧
    (active.engine.onEvent e (c.hear e).stage).1.isTerminal = true
  | .deliver (.fault f) => ∃ target,
    c.session.faults.decide f (c.session.inReach f) = .preempt target ∧
      (c.vacated.startHandler target f .preempted).1.isTerminal = true
  | _ => False

/-- How urgent the active handler is. -/
def urgency (c : Scene) : Option Int := c.session.faults.active.map ActiveHandler.priority

theorem urgency_some {active : ActiveHandler} (h : c.session.faults.active = some active) :
    c.urgency = some active.priority := by
  rw [urgency, h]
  rfl

theorem startHandler_urgency (c : Scene) (target : Target) (f : Fault) (d : Disposition) :
    (c.startHandler target f d).2.urgency = some target.response.priority := by
  rw [startHandler_eq]
  split <;> rfl

theorem halt_urgency (c : Scene) (reason : String) : (c.halt reason).2.urgency = none := by
  obtain ⟨g, hg, h⟩ := halt_eq c reason
  rw [h]
  simp [urgency, map, hg.faults, (cleared_faults c).1]

/-- While a handler is active, it gives way to a less urgent one only in a call in which a handler
comes to its end. -/
theorem call_urgency {call : Call} {before after : Int} (hr : c.session.isRunning = true)
    (hb : c.urgency = some before) (ha : (c.call call).urgency = some after)
    (hlt : after < before) : c.HandsOver call := by
  obtain ⟨active, hactive, rfl⟩ : ∃ active, c.session.faults.active = some active ∧
      active.priority = before := Option.map_eq_some_iff.mp hb
  have hsame : (c.call call).session.faults.active = c.session.faults.active → c.HandsOver call := by
    intro h
    rw [urgency, h, hactive] at ha
    have := Option.some.inj ha
    omega
  have hgone : (c.call call).urgency = none → c.HandsOver call := fun h => nomatch h.symm.trans ha
  cases call with
  | start =>
    refine hsame ?_
    have hc : c.session.status ≠ .created := by
      intro hc
      simp [Session.isRunning, hc, Status.isRunning] at hr
    simp [Scene.call, start, hc]
  | stop =>
    refine hgone ?_
    have hs : c.session.status = .running := Status.eq_running hr
    simp only [Scene.call, stop, hs]
    exact halt_urgency ..
  | drive command => exact hsame (by rw [Scene.call, drive_session])
  | deliver signal =>
    cases signal with
    | event e =>
      by_cases he : e.task = c.session.root.id ∧ e.name.isTerminal = true
      · refine hgone ?_
        simp only [Scene.call, deliver, handleEvent_root hr he]
        exact halt_urgency ..
      · refine ⟨active, hactive, ?_⟩
        cases hp : active.engine.onEvent e (c.hear e).stage with
        | mk p rest =>
          simp only [Scene.call, deliver, handleEvent_handler hr hactive he hp] at ha
          cases p with
          | finished completion => rfl
          | failed error => rfl
          | waiting | advanced =>
            have hkept : active.priority = after := Option.some.inj ha
            omega
    | fault f =>
      have hdelivered : c.call (.deliver (.fault f)) = (c.handleFault f).2 := rfl
      rw [handleFault_eq hr] at hdelivered
      cases hd : c.session.faults.decide f (c.session.inReach f) with
      | unhandled =>
        rw [hd] at hdelivered
        exact hsame (by rw [hdelivered]; rfl)
      | queue =>
        rw [hd] at hdelivered
        obtain ⟨pending, hp⟩ := c.session.faults.enqueue_eq f
        exact hsame (by rw [hdelivered, enqueue_faults, hp])
      | preempt target =>
        rw [hd] at hdelivered
        refine ⟨target, hd, ?_⟩
        cases hp : (c.vacated.startHandler target f .preempted).1.isTerminal with
        | true => rfl
        | false =>
          rw [hdelivered, handle_started hp, startHandler_urgency] at ha
          obtain ⟨_, _, hselected, hurgent⟩ := Dispatch.decide_eq_preempt_iff.mp hd
          rw [hactive] at hselected
          cases hselected
          have := Option.some.inj ha
          omega
      | activate target => cases hactive.symm.trans (decide_activate hd)

/-- If the active handler is less urgent after a run than before, although a fault has waited all
along, then a handler came to its end on the way. -/
theorem urgency_drop {responses : List (List Response)} (h : c.Kempt responses)
    {calls : List Call}
    (hf : ∀ mid, mid <+: calls → f ∈ (c.after mid).session.faults.pending) {before after : Int}
    (hb : c.urgency = some before) (ha : (c.after calls).urgency = some after)
    (hlt : after < before) :
    ∃ mid call, mid ++ [call] <+: calls ∧ (c.after mid).HandsOver call := by
  induction calls using List.reverseRecOn generalizing after with
  | nil =>
    have := Option.some.inj (hb.symm.trans ha)
    omega
  | append_singleton calls call ih =>
    have hpre : calls <+: calls ++ [call] := List.prefix_append ..
    obtain ⟨hr, active, hactive⟩ := (h.after calls).behind (hf calls hpre)
    rw [after_append] at ha
    by_cases hdrop : after < active.priority
    · exact ⟨calls, call, List.prefix_rfl, call_urgency hr (urgency_some hactive) ha hdrop⟩
    · obtain ⟨mid, other, hmid, hover⟩ :=
        ih (fun mid hmid => hf mid (hmid.trans hpre)) (urgency_some hactive) (by omega)
      exact ⟨mid, other, hmid.trans hpre, hover⟩

theorem Queues.urgency (h : c.Queues f) :
    (c.call (.deliver (.fault f))).urgency = c.urgency := by
  have hdelivered : c.call (.deliver (.fault f)) = (c.handleFault f).2 := rfl
  rw [handleFault_eq h.1, h.2] at hdelivered
  obtain ⟨pending, hp⟩ := c.session.faults.enqueue_eq f
  rw [hdelivered, Scene.urgency, enqueue_faults, hp]
  rfl

end Scene

/-- A fault that waits came behind a handler that was at least as urgent as the response selected
for it. It outranks the active handler only if other responses have come within its reach since,
or if a handler came to its end and left its place to a less urgent one. -/
theorem precedence_on_arrival {root : Handle} {s : Session} (hs : s.Unstarted root) (p : Plan)
    {calls : List Call} {f : Fault}
    (hf : f ∈ (Scene.after ⟨s, p⟩ calls).session.faults.pending) :
    let c := Scene.after ⟨s, p⟩ calls
    ∃ earlier later, calls = earlier ++ .deliver (.fault f) :: later ∧
      let b := Scene.after ⟨s, p⟩ earlier
      b.session.isRunning = true ∧ c.session.isRunning = true ∧
      ∃ target behind active,
        b.session.faults.Nearest f (b.session.inReach f) 0 target ∧
        b.session.faults.active = some behind ∧ target.response.priority ≤ behind.priority ∧
        c.session.faults.active = some active ∧
        (c.Outranks f → c.session.inReach f ≠ b.session.inReach f ∨
          active.priority < behind.priority ∧ ∃ mid call, mid ++ [call] <+: later ∧
            ((b.call (.deliver (.fault f))).after mid).HandsOver call) := by
  intro c
  have hkempt := hs.kempt p
  obtain ⟨hr, active, hactive⟩ := (hkempt.after calls).behind hf
  obtain ⟨earlier, later, hcalls, hq, hmid⟩ := Scene.waiting_since hkempt hs.fresh.pending hf
  refine ⟨earlier, later, hcalls, ?_⟩
  intro b
  obtain ⟨target, behind, hselected, hbehind, hle⟩ := Dispatch.decide_eq_queue_iff.mp hq.2
  refine ⟨hq.1, hr, target, behind, active, Dispatch.selectFrom_eq_some_iff.mp hselected, hbehind,
    hle, hactive, ?_⟩
  rintro ⟨now, hnow⟩
  obtain ⟨hfound, _, ha, hurgent⟩ := Dispatch.decide_eq_preempt_iff.mp hnow
  obtain rfl : active = _ := Option.some.inj (hactive.symm.trans ha)
  by_cases hreach : c.session.inReach f = b.session.inReach f
  · right
    have hsame : c.session.faults.responses = b.session.faults.responses :=
      (hkempt.after calls).responses.trans (hkempt.after earlier).responses.symm
    have htarget : now = target := by
      rw [hreach, Dispatch.selectFrom_congr hsame, hselected] at hfound
      exact (Option.some.inj hfound).symm
    rw [htarget] at hurgent
    have hlt : active.priority < behind.priority := by omega
    refine ⟨hlt, ?_⟩
    have hstart : Scene.after ⟨s, p⟩ (earlier ++ [.deliver (.fault f)]) =
        b.call (.deliver (.fault f)) := Scene.after_append ..
    have hend : c = (b.call (.deliver (.fault f))).after later := by
      rw [← hstart, ← Scene.after_append]
      simp [c, hcalls]
    rw [hstart] at hmid
    refine Scene.urgency_drop ((hkempt.after earlier).call _) hmid ?_ ?_ hlt
    · rw [hq.urgency]
      exact Scene.urgency_some hbehind
    · rw [← hend]
      exact Scene.urgency_some hactive
  · exact .inl hreach

/-! ## A sample -/

/-- A response to faults of one category, whose handler waits for the root to be told to go on. -/
def Response.ranked (category : String) (priority : Int) : Response :=
  ⟨category, .category category,
    .script ⟨"mender", [], [.wait "pause" (.leaf (.emitted .root ⟨"go"⟩))]⟩, priority, .direct,
    .goOn, false⟩

def ResponseTable.ranked : ResponseTable :=
  .ofResponses "mending" [.ranked "high" 10, .ranked "low" 1, .ranked "mid" 5]

def Fault.ranked (category : String) : Fault := ⟨Handle.sample.id, category, "", []⟩

/-- A fault of low priority waits behind a handler of high priority. -/
theorem precedence_on_arrival_low :
    let calls : List Call :=
      [.start, .deliver (.fault (.ranked "high")), .deliver (.fault (.ranked "low"))]
    let c := Scene.after ⟨Session.sample.withTable .ranked, .sample⟩ calls
    Fault.ranked "low" ∈ c.session.faults.pending ∧
      ∃ earlier later, calls = earlier ++ .deliver (.fault (.ranked "low")) :: later ∧
        ∃ target behind,
          (Scene.after ⟨Session.sample.withTable .ranked, .sample⟩ earlier).session.faults.active =
            some behind ∧
          (target : Target).response.priority ≤ behind.priority := by
  intro calls c
  have hf : Fault.ranked "low" ∈ c.session.faults.pending := by decide
  obtain ⟨earlier, later, hcalls, _, _, target, behind, _, _, hbehind, hle, _⟩ :=
    precedence_on_arrival (.withTable .ranked Session.sample_unstarted) .sample hf
  exact ⟨hf, earlier, later, hcalls, target, behind, hbehind, hle⟩

/-- Faults of high, low and middle priority come in this order. When the first handler is done, the
second takes its place although the third fault outranks it. -/
theorem precedence_lost_in_turn :
    let c := Scene.after ⟨Session.sample.withTable .ranked, .sample⟩
      [.start, .deliver (.fault (.ranked "high")), .deliver (.fault (.ranked "low")),
        .deliver (.fault (.ranked "mid")), .deliver (.event .go)]
    c.session.isRunning = true ∧ c.session.faults.active.map ActiveHandler.fault =
      some (.ranked "low") ∧ Fault.ranked "mid" ∈ c.session.faults.pending ∧
        c.Outranks (.ranked "mid") := by
  intro c
  exact ⟨by decide, by decide, by decide, ⟨0, 2, .ranked "mid" 5⟩, by decide⟩

end Conductor
