import Conductor.Proofs.Session.Deliveries
import Conductor.Proofs.Session.Escalation
import Mathlib.Data.List.Induction

/-!
The queue of a session: the faults that wait behind the active handler. A call adds at most the
fault that it delivers, so a fault that waits has waited since it was delivered and had to queue.
While no handler runs, none waits.
-/

namespace Conductor

/-- Of the faults that waited and the one that comes some may make room, and none comes to wait twice. -/
theorem Dispatch.enqueue_sublist (d : Dispatch) (f : Fault) :
    (d.enqueue f).2.pending.Sublist (d.pending ++ [f]) := by
  have hsub : (if d.pending.length ≥ d.limit then (d.pending.head?, d.pending.tail)
      else (none, d.pending)).2.Sublist d.pending := by
    split
    · exact List.tail_sublist _
    · exact List.Sublist.refl _
  simp only [enqueue]
  split
  · exact hsub.append_right [f]
  · exact hsub.trans (List.sublist_append_left _ _)

theorem Dispatch.mem_enqueue {d : Dispatch} {f g : Fault} (h : g ∈ (d.enqueue f).2.pending) :
    g ∈ d.pending ∨ g = f := by
  simpa using (d.enqueue_sublist f).mem h

namespace Scene

variable {c : Scene} {f : Fault}

/-- A fault would wait behind the active handler. -/
def Queues (c : Scene) (f : Fault) : Prop :=
  c.session.isRunning = true ∧ c.session.faults.decide f (c.session.inReach f) = .queue

/-- While a session runs without a handler, no fault waits. -/
def Caught (c : Scene) : Prop :=
  c.session.isRunning = true → c.session.faults.active = none → c.session.faults.pending = []

theorem Caught.of_ended (h : c.session.status.isTerminal = true) : c.Caught :=
  fun hr => absurd hr (Status.not_running h)

theorem Caught.of_handler (h : c.session.faults.active.isSome = true) : c.Caught := by
  intro _ ha
  rw [ha] at h
  cases h

theorem vacated_pending (c : Scene) :
    c.vacated.session.faults.pending = c.session.faults.pending := by
  unfold vacated
  cases c.counted.abandonHandler.1 <;> exact abandonHandler_pending c.counted

/-! ## What a call makes of the queue -/

/-- Of the given faults some may still wait, and no other ones. -/
structure Remaining (c : Scene) (faults : List Fault) : Prop where
  caught : c.Caught
  waiting : c.session.isRunning = true → ∀ g ∈ c.session.faults.pending, g ∈ faults

theorem Remaining.of_ended {faults : List Fault} (h : c.session.status.isTerminal = true) :
    c.Remaining faults :=
  ⟨.of_ended h, fun hr => absurd hr (Status.not_running h)⟩

theorem Remaining.mono {faults faults' : List Fault} (h : c.Remaining faults)
    (hsub : faults ⊆ faults') : c.Remaining faults' :=
  ⟨h.caught, fun hr g hg => hsub (h.waiting hr g hg)⟩

theorem drain_remaining (faults : List Fault) (outcome : Outcome)
    (hp : c.session.isRunning = true → c.session.faults.pending = faults) :
    (drain faults outcome c).2.Remaining faults := by
  induction faults generalizing c outcome with
  | nil => exact ⟨fun hr _ => hp hr, fun hr g hg => hp hr ▸ hg⟩
  | cons f rest ih =>
    have hsub : rest ⊆ f :: rest := List.subset_cons_self f rest
    simp only [drain]
    split
    · rename_i hfree
      have ha : c.session.faults.active = none := by
        obtain ⟨_, hs⟩ : c.session.isRunning = true ∧ c.session.isSuspended = false := by
          simpa using hfree
        simpa [Session.isSuspended, Dispatch.isHandling] using hs
      have hrest : ∀ {routing c'}, (c.withPending rest).route f = (routing, c') →
          c'.session.isRunning = true → c'.session.faults.pending = rest := by
        rintro routing c' h
        obtain rfl : ((c.withPending rest).route f).2 = c' := congrArg Prod.snd h
        exact route_pending ha
      split
      · rename_i h
        have hactive : Option.isSome _ = true := route_shown h
        exact ⟨.of_handler hactive, fun hr g hg => hsub (hrest h hr ▸ hg)⟩
      · rename_i h
        exact .of_ended (route_shown h)
      · rename_i h
        split
        · rename_i hterminal
          exact .of_ended (route_shown h hterminal)
        · exact (ih _ (hrest h)).mono hsub
      · rename_i h
        exact (ih _ (hrest h)).mono hsub
    · rename_i hbusy
      refine ⟨fun hr ha => absurd ?_ hbusy, fun hr g hg => hp hr ▸ hg⟩
      have hr' : c.session.isRunning = true := hr
      have ha' : c.session.faults.active = none := ha
      simp [hr', ha', Session.isSuspended, Dispatch.isHandling]

theorem conclude_remaining {handling : Handling} (h : handling.Shown c) :
    (c.conclude handling).2.Remaining c.session.faults.pending := by
  cases handling with
  | started response => exact ⟨.of_handler h, fun _ _ hg => hg⟩
  | lost outcome => exact .of_ended h
  | resolved response model =>
    rw [conclude_resolved]
    exact drain_remaining _ model fun _ => rfl

/-- The faults that waited before a fault was handled are those that may wait afterwards. -/
theorem handle_remaining (c : Scene) (target : Target) (f : Fault) (d : Disposition) :
    ((c.handle target f d).2.conclude (c.handle target f d).1).2.Remaining
      c.session.faults.pending := by
  have h := conclude_remaining (engage_shown (c.session.faults.tables.length + 1) c target f d)
  refine ⟨h.caught, fun hr g hg => ?_⟩
  rw [← engage_pending _ (running_of_conclude hr)]
  exact h.waiting hr g hg

theorem settleHandler_remaining {active : ActiveHandler}
    (ha : c.session.faults.active = some active) (p : Progress) :
    (c.settleHandler active p).2.Remaining c.session.faults.pending := by
  have hsame : c.Remaining c.session.faults.pending :=
    ⟨.of_handler (by simp [ha]), fun _ _ hg => hg⟩
  cases p with
  | waiting => exact hsame
  | advanced => exact hsame
  | finished completion =>
    have h := drain_remaining (c := (c.resolve active completion).2) _
      (c.resolve active completion).1 fun _ => rfl
    refine ⟨h.caught, fun hr g hg => ?_⟩
    rw [← resolve_pending (running_of_drain hr)]
    exact h.waiting hr g hg
  | failed error =>
    simp only [settleHandler]
    split
    · rename_i next c' he
      obtain ⟨_, _, hpending⟩ := escalate_ok he
      rw [← hpending]
      exact handle_remaining ..
    · exact .of_ended (exhaust_terminal ..)

theorem handleEvent_remaining (h : c.Caught) (e : Event) :
    (c.handleEvent e).2.Remaining c.session.faults.pending := by
  cases hr : c.session.isRunning with
  | false =>
    rw [handleEvent_idle hr]
    exact ⟨h, fun _ _ hg => hg⟩
  | true =>
    by_cases he : e.task = c.session.root.id ∧ e.name.isTerminal = true
    · rw [handleEvent_root hr he]
      exact .of_ended (halt_terminal ..)
    cases ha : c.session.faults.active with
    | some active =>
      rw [handleEvent_handler hr ha he rfl]
      exact settleHandler_remaining (c := (c.hear e).withHandler active _ _) rfl _
    | none =>
      rw [handleEvent_model hr ha he rfl]
      have hnone := h hr ha
      refine ⟨fun hr' _ => ?_, fun hr' g hg => ?_⟩
      · rw [settleModel_pending hr']
        exact hnone
      · rw [settleModel_pending hr'] at hg
        exact hg

theorem handleFault_waiting (h : c.Caught) (f : Fault) :
    (c.handleFault f).2.Caught ∧ ((c.handleFault f).2.session.isRunning = true →
      ∀ g ∈ (c.handleFault f).2.session.faults.pending,
        g ∈ c.session.faults.pending ∨ g = f ∧ c.Queues f) := by
  cases hr : c.session.isRunning with
  | false =>
    rw [handleFault_idle hr]
    exact ⟨h, fun _ _ hg => .inl hg⟩
  | true =>
    rw [handleFault_eq hr]
    cases hd : c.session.faults.decide f (c.session.inReach f) with
    | unhandled => exact ⟨h, fun _ _ hg => .inl hg⟩
    | queue =>
      refine ⟨.of_handler ?_, fun _ g hg => ?_⟩
      · obtain ⟨active, ha⟩ := decide_displace (.inr hd)
        rw [enqueue_active, ha]
        rfl
      · simp only [enqueue_faults] at hg
        rcases Dispatch.mem_enqueue hg with hg | rfl
        · exact .inl hg
        · exact .inr ⟨rfl, hr, hd⟩
    | preempt target =>
      have hhandled := handle_remaining c.vacated target f .preempted
      rw [vacated_pending] at hhandled
      exact ⟨hhandled.caught, fun hr g hg => .inl (hhandled.waiting hr g hg)⟩
    | activate target =>
      have hhandled := handle_remaining c.counted target f .triggered
      exact ⟨hhandled.caught, fun hr g hg => .inl (hhandled.waiting hr g hg)⟩

theorem start_remaining (h : c.Caught) (hs : c.Sound) :
    c.start.2.Remaining c.session.faults.pending := by
  unfold start
  split
  · exact ⟨h, fun _ _ hg => hg⟩
  · rename_i hcreated
    have hidle : c.session.isRunning = false := by
      rw [Session.isRunning, Decidable.not_not.mp hcreated]
      rfl
    obtain ⟨_, hpending⟩ := hs.rest hidle
    extract_lets begun
    split
    · refine ⟨fun hr _ => ?_, fun hr g hg => ?_⟩
      · exact (settleModel_pending hr).trans hpending
      · exact settleModel_pending hr ▸ hg
    · exact .of_ended (fail_terminal ..)

/-- A fault that waits after a call waited before, or came with the call and had to queue. -/
theorem call_waiting (h : c.Caught) (hs : c.Sound) (call : Call) :
    (c.call call).Caught ∧ ((c.call call).session.isRunning = true →
      ∀ g ∈ (c.call call).session.faults.pending,
        g ∈ c.session.faults.pending ∨ call = .deliver (.fault g) ∧ c.Queues g) := by
  have hold : ∀ {c'}, Remaining c' c.session.faults.pending →
      c'.Caught ∧ (c'.session.isRunning = true → ∀ g ∈ c'.session.faults.pending,
        g ∈ c.session.faults.pending ∨ call = .deliver (.fault g) ∧ c.Queues g) :=
    fun hc => ⟨hc.caught, fun hr g hg => .inl (hc.waiting hr g hg)⟩
  cases call with
  | start => exact hold (start_remaining h hs)
  | deliver signal =>
    cases signal with
    | event e => exact hold (handleEvent_remaining h e)
    | fault f =>
      obtain ⟨hcaught, hwaiting⟩ := handleFault_waiting h f
      refine ⟨hcaught, fun hr g hg => ?_⟩
      rcases hwaiting hr g hg with hg | ⟨rfl, hq⟩
      · exact .inl hg
      · exact .inr ⟨rfl, hq⟩
  | stop =>
    refine hold ?_
    show c.stop.2.Remaining _
    unfold stop
    split
    · exact .of_ended (halt_terminal ..)
    · exact .of_ended rfl
    · exact ⟨h, fun _ _ hg => hg⟩
  | drive command =>
    have hsame : (c.call (.drive command)).session = c.session := drive_session c command
    refine ⟨?_, fun _ g hg => .inl (hsame ▸ hg)⟩
    unfold Caught
    rw [hsame]
    exact h

/-! ## What a run makes of the queue -/

theorem closing_responses {c' : Scene} {g : Session → Session} (hg : Closing g)
    (h : c' = c.retireEverything.map g) :
    c'.session.faults.responses = c.session.faults.responses := by
  rw [h]
  simp only [map, hg.faults]
  rw [retireEverything_eq]
  show c.abandonHandler.2.session.faults.tables.map ResponseTable.responses = _
  exact abandonHandler_responses c

/-- The responses of a session stay what they were set up to be. -/
theorem turn_responses {m m' : Moment} (ht : Turn m m') :
    m'.scene.session.faults.responses = m.scene.session.faults.responses := by
  cases ht with
  | begin | cancel | hear | count | model | handler | unhandled | draw | trigger => rfl
  | @queue c f =>
    obtain ⟨trail, he⟩ := c.enqueue_eq f
    obtain ⟨pending, hq⟩ := c.session.faults.enqueue_eq f
    show (c.enqueue f).session.faults.responses = _
    rw [he]
    simp only [map, hq]
    rfl
  | @displace c f active => exact abandonHandler_responses c
  | @install c f target =>
    have htriggered := c.session.faults.advance_responses target.table target.entry .triggered
    exact (Dispatch.advance_responses _ target.table target.entry .handling).trans htriggered
  | @resolve c active => exact endHandler_responses c active .resolved
  | @escalate c active => exact endHandler_responses c active .escalated
  | @exhaust c f =>
    obtain ⟨g, hg, he⟩ := fail_eq (c.giveUp f) .escalationExhausted
    exact closing_responses (c := c.giveUp f) hg he
  | succeed completion =>
    obtain ⟨g, hg, he⟩ := succeed_eq _ completion
    exact closing_responses hg he
  | fail error =>
    obtain ⟨g, hg, he⟩ := fail_eq _ error
    exact closing_responses hg he
  | halt reason =>
    obtain ⟨g, hg, he⟩ := halt_eq _ reason
    exact closing_responses hg he

/-- What holds of a session throughout its life: it is sound and has caught up with its queue, and
its responses are those that it was set up with. -/
structure Kempt (responses : List (List Response)) (c : Scene) : Prop where
  sound : c.Sound
  caught : c.Caught
  responses : c.session.faults.responses = responses

namespace Kempt

variable {responses : List (List Response)}

theorem call (h : c.Kempt responses) (call : Call) : (c.call call).Kempt responses where
  sound := h.sound.call call
  caught := (call_waiting h.caught h.sound call).1
  responses := by
    refine (call_preserves (P := fun c => c.session.faults.responses = responses) ?_ h.sound call
      ?_ h.responses).1
    · exact fun _ _ ht _ h => (turn_responses ht).trans h
    · intro command _ h
      rw [drive_session]
      exact h

theorem after (h : c.Kempt responses) (calls : List Call) : (c.after calls).Kempt responses :=
  after_keeps (fun _ call h => h.call call) h calls

/-- A fault waits in a running session behind a handler. -/
theorem behind (h : c.Kempt responses) (hf : f ∈ c.session.faults.pending) :
    c.session.isRunning = true ∧ ∃ active, c.session.faults.active = some active := by
  have hr : c.session.isRunning = true := by
    cases hr : c.session.isRunning with
    | true => rfl
    | false =>
      rw [(h.sound.rest hr).2] at hf
      cases hf
  refine ⟨hr, ?_⟩
  cases ha : c.session.faults.active with
  | some active => exact ⟨active, rfl⟩
  | none =>
    rw [h.caught hr ha] at hf
    cases hf

end Kempt

/-- A fault that waits has waited since it was delivered and had to queue. -/
theorem waiting_since {responses : List (List Response)} (h : c.Kempt responses)
    (hempty : c.session.faults.pending = []) {calls : List Call}
    (hf : f ∈ (c.after calls).session.faults.pending) :
    ∃ earlier later, calls = earlier ++ .deliver (.fault f) :: later ∧
      (c.after earlier).Queues f ∧ ∀ mid, mid <+: later →
        f ∈ ((c.after (earlier ++ [.deliver (.fault f)])).after mid).session.faults.pending := by
  induction calls using List.reverseRecOn with
  | nil =>
    have hnone : f ∈ c.session.faults.pending := hf
    rw [hempty] at hnone
    cases hnone
  | append_singleton calls call ih =>
    have hkempt := h.after calls
    have hafter := after_append c calls [call]
    have hwaits := (hkempt.call call).behind (f := f)
    rw [hafter] at hf
    obtain ⟨hr, _⟩ := hwaits hf
    rcases (call_waiting hkempt.caught hkempt.sound call).2 hr f hf with hold | ⟨rfl, hq⟩
    · obtain ⟨earlier, later, rfl, hq, hmid⟩ := ih hold
      refine ⟨earlier, later ++ [call], by simp, hq, fun mid hpre => ?_⟩
      rcases List.prefix_concat_iff.mp hpre with rfl | hpre
      · rw [← after_append]
        simpa [← hafter] using hf
      · exact hmid mid hpre
    · refine ⟨calls, [], rfl, hq, fun mid hpre => ?_⟩
      obtain rfl := List.prefix_nil.mp hpre
      rw [hafter]
      exact hf

end Scene

theorem Session.Unstarted.kempt {root : Handle} {s : Session} (h : s.Unstarted root) (p : Plan) :
    Scene.Kempt s.faults.responses ⟨s, p⟩ :=
  ⟨h.fresh.sound p, fun _ _ => h.fresh.pending, rfl⟩

/-- Whatever is done with a session, no fault waits in vain: while it runs without a handler, its
queue is empty. -/
theorem no_stranded_fault {root : Handle} {s : Session} (hs : s.Unstarted root) (p : Plan)
    {calls : List Call} (hr : (Scene.after ⟨s, p⟩ calls).session.isRunning = true)
    (ha : (Scene.after ⟨s, p⟩ calls).session.faults.active = none) :
    (Scene.after ⟨s, p⟩ calls).session.faults.pending = [] :=
  ((hs.kempt p).after calls).caught hr ha

theorem no_stranded_fault_once_mended :
    let faults : List Call := [.start, .deliver (.fault .sample), .deliver (.fault .sample)]
    let calls : List Call := faults ++ [.deliver (.event .go), .deliver (.event .go)]
    let waiting := (Scene.after ⟨Session.sample.withTable .sample, .sample⟩ faults).session
    let mended := (Scene.after ⟨Session.sample.withTable .sample, .sample⟩ calls).session
    waiting.faults.pending = [.sample] ∧ mended.isRunning = true ∧ mended.faults.active = none ∧
      mended.faults.pending = [] := by
  intro faults calls waiting mended
  have hs : (Session.sample.withTable .sample).Unstarted .sample :=
    .withTable .sample Session.sample_unstarted
  have hr : (Scene.after ⟨Session.sample.withTable .sample, .sample⟩
      calls).session.isRunning = true := by decide +kernel
  have ha : (Scene.after ⟨Session.sample.withTable .sample, .sample⟩
      calls).session.faults.active = none := by decide +kernel
  exact ⟨by decide +kernel, hr, ha, no_stranded_fault hs .sample hr ha⟩

end Conductor
