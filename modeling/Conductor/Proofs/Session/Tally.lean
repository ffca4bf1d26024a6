import Conductor.Proofs.Session.Backlog
import Conductor.Proofs.Session.Courses

/-!
What a session counts as delivered. Each signal that it is told of while it runs counts once. A fault
that had to wait counts again when it has its turn, since it is then routed as if it came anew.
-/

namespace Conductor

namespace Scene

variable {c c' : Scene} {f : Fault}

/-! ## What leaves the count alone -/

theorem abandonHandler_deliveries (c : Scene) :
    c.abandonHandler.2.session.deliveries = c.session.deliveries := by
  unfold abandonHandler
  split <;> rfl

theorem withEngine_deliveries (c : Scene) (e : Engine) (s : Stage) :
    (c.withEngine e s).session.deliveries = c.session.deliveries :=
  rfl

theorem cleared_deliveries (c : Scene) : c.cleared.session.deliveries = c.session.deliveries :=
  abandonHandler_deliveries c

theorem closing_deliveries {g : Session → Session} (hg : Closing g)
    (h : c' = c.retireEverything.map g) : c'.session.deliveries = c.session.deliveries := by
  rw [h]
  simp only [map, hg.deliveries]
  rw [retireEverything_eq, withEngine_deliveries, cleared_deliveries]

theorem settleModel_deliveries (c : Scene) (p : Progress) :
    (c.settleModel p).2.session.deliveries = c.session.deliveries := by
  obtain he | ⟨g, hg, he⟩ := settleModel_eq c p
  · rw [he]
  · exact closing_deliveries hg he

theorem exhaust_deliveries (c : Scene) (f : Fault) :
    (c.exhaust f).2.session.deliveries = c.session.deliveries := by
  obtain ⟨g, hg, h⟩ := fail_eq (c.giveUp f) .escalationExhausted
  exact closing_deliveries (c := c.giveUp f) hg h

theorem resolve_deliveries (c : Scene) (active : ActiveHandler) (completion : Completion) :
    (c.resolve active completion).2.session.deliveries = c.session.deliveries := by
  rw [resolve_eq]
  exact settleModel_deliveries ..

theorem startHandler_deliveries {target : Target} {d : Disposition} {p : Progress}
    (h : c.startHandler target f d = (p, c')) : c'.session.deliveries = c.session.deliveries := by
  have hready : (c.ready target f d).session.deliveries = c.session.deliveries := by
    unfold ready suspend
    split <;> rfl
  rw [startHandler_eq] at h
  split at h
  · cases h
    exact hready
  · cases h
    exact hready

theorem engage_deliveries (fuel : Nat) (c : Scene) (target : Target) (f : Fault)
    (d : Disposition) :
    (engage fuel c target f d).2.session.deliveries = c.session.deliveries := by
  induction fuel generalizing c target d with
  | zero => exact exhaust_deliveries c f
  | succ fuel ih =>
    cases hs : c.startHandler target f d with
    | mk p c₁ =>
      obtain ⟨_, _, active, ha, _⟩ := startHandler_ok hs
      have hstarted := startHandler_deliveries hs
      simp only [engage, hs, ha]
      cases p with
      | waiting | advanced => exact hstarted
      | finished completion => exact (resolve_deliveries c₁ active completion).trans hstarted
      | failed error =>
        have hescalated : (c₁.escalate active).2.session.deliveries = c.session.deliveries :=
          hstarted
        simp only
        split
        · rename_i next c₂ he
          rw [he] at hescalated
          exact (ih c₂ next .triggered).trans hescalated
        · rename_i c₂ he
          rw [he] at hescalated
          exact (exhaust_deliveries c₂ f).trans hescalated

theorem outwards_deliveries (c : Scene) (active : ActiveHandler) :
    (c.outwards active).2.session.deliveries = c.session.deliveries := by
  have hescalated : (c.escalate active).2.session.deliveries = c.session.deliveries := rfl
  unfold outwards
  split
  · rename_i next c₁ he
    rw [he] at hescalated
    exact (engage_deliveries _ c₁ next active.fault .triggered).trans hescalated
  · rename_i c₁ he
    rw [he] at hescalated
    exact (exhaust_deliveries c₁ active.fault).trans hescalated

/-- A fault that is routed counts, whatever becomes of it. -/
theorem route_deliveries (c : Scene) (f : Fault) :
    (c.route f).2.session.deliveries = c.session.deliveries + 1 := by
  rw [route_eq]
  cases c.session.faults.decide f (c.session.inReach f) with
  | unhandled => rfl
  | queue =>
    obtain ⟨trail, he⟩ := c.counted.enqueue_eq f
    rw [he]
    rfl
  | preempt target =>
    refine (engage_deliveries _ c.vacated target f .preempted).trans ?_
    unfold vacated
    cases c.counted.abandonHandler.1 <;> exact abandonHandler_deliveries c.counted
  | activate target => exact engage_deliveries _ c.counted target f .triggered

/-! ## Faults that have their turn -/

/-- The faults that have their turn, of those that wait. -/
def takenUp : List Fault → Scene → List Fault
  | [], _ => []
  | f :: rest, c =>
    if c.session.isRunning && !c.session.isSuspended then
      f :: takenUp rest ((c.withPending rest).route f).2
    else []

theorem takenUp_rests (h : ¬ c.Free) (faults : List Fault) : takenUp faults c = [] := by
  cases faults with
  | nil => rfl
  | cons f rest => rw [takenUp, if_neg (free_iff.not.mp h)]

theorem takenUp_free (h : c.Free) (f : Fault) (rest : List Fault) :
    takenUp (f :: rest) c = f :: takenUp rest ((c.withPending rest).route f).2 := by
  rw [takenUp, if_pos (free_iff.mp h)]

theorem takenUp_sublist (faults : List Fault) (c : Scene) : (takenUp faults c).Sublist faults := by
  induction faults generalizing c with
  | nil => exact List.nil_sublist _
  | cons f rest ih =>
    by_cases hc : c.Free
    · rw [takenUp_free hc]
      exact (ih _).cons_cons f
    · rw [takenUp_rests hc]
      exact List.nil_sublist _

theorem Free.not_terminal (h : c.Free) : c.session.status.isTerminal ≠ true :=
  fun ht => Status.not_running ht h.1

/-- Whatever comes of the first fault, those behind it have their turn in the scene that it leaves:
where a handler was started or the session has ended, that comes to nothing. -/
theorem drain_scene_cons (h : c.Free) (f : Fault) (rest : List Fault) (o o' : Outcome)
    (ih : ∀ c' o o', (drain rest o c').2 = (drain rest o' c').2) :
    (drain (f :: rest) o c).2 = (drain rest o' ((c.withPending rest).route f).2).2 := by
  have hstops : ∀ {c'}, ¬ Free c' → c' = (drain rest o' c').2 := by
    intro c' hc'
    rw [drain_rests (.inl hc')]
  rw [drain_free h]
  cases hroute : (c.withPending rest).route f with
  | mk routing c₁ =>
    cases routing with
    | unhandled | queued => exact ih c₁ o o'
    | handled handling =>
      have hshown := route_shown hroute
      cases handling with
      | started response =>
        have hactive : c₁.session.faults.active.isSome = true := hshown
        exact hstops fun hfree : c₁.Free => by simp [hfree.2] at hactive
      | lost lost => exact hstops fun hfree : c₁.Free => hfree.not_terminal hshown
      | resolved response model =>
        simp only
        split
        · rename_i hterminal
          exact hstops fun hfree => hfree.not_terminal (hshown hterminal)
        · exact ih c₁ o o'

/-- What the model reported makes no difference to the faults that wait. -/
theorem drain_scene (faults : List Fault) (c : Scene) (o o' : Outcome) :
    (drain faults o c).2 = (drain faults o' c).2 := by
  induction faults generalizing c o o' with
  | nil => rfl
  | cons f rest ih =>
    by_cases hc : c.Free
    · rw [drain_scene_cons hc f rest o o' ih, drain_scene_cons hc f rest o' o' ih]
    · rw [drain_rests (.inl hc), drain_rests (.inl hc)]

theorem drain_scene_free (h : c.Free) (f : Fault) (rest : List Fault) (o : Outcome) :
    (drain (f :: rest) o c).2 = (drain rest o ((c.withPending rest).route f).2).2 :=
  drain_scene_cons h f rest o o (drain_scene rest)

/-- Each fault that has its turn counts. -/
theorem drain_deliveries (faults : List Fault) (o : Outcome) (c : Scene) :
    (drain faults o c).2.session.deliveries =
      c.session.deliveries + (takenUp faults c).length := by
  induction faults generalizing c with
  | nil => rfl
  | cons f rest ih =>
    by_cases hc : c.Free
    · rw [drain_scene_free hc, ih, route_deliveries, takenUp_free hc, List.length_cons]
      show c.session.deliveries + 1 + _ = _
      omega
    · rw [drain_rests (.inl hc), takenUp_rests hc]
      rfl

/-- As long as the session goes on, the faults that had no turn still wait. -/
theorem drain_left (faults : List Fault) (o : Outcome)
    (hp : c.session.isRunning = true → c.session.faults.pending = faults)
    (hr : (drain faults o c).2.session.isRunning = true) :
    takenUp faults c ++ (drain faults o c).2.session.faults.pending = faults := by
  induction faults generalizing c with
  | nil => exact hp hr
  | cons f rest ih =>
    by_cases hc : c.Free
    · have ha : (c.withPending rest).session.faults.active = none := hc.2
      rw [drain_scene_free hc] at hr ⊢
      rw [takenUp_free hc, List.cons_append, ih (route_pending ha) hr]
    · rw [drain_rests (.inl hc)] at hr ⊢
      rw [takenUp_rests hc]
      exact hp hr

/-! ## Deliveries -/

/-- What the report of the active handler comes to, before faults that waited have their turn. -/
def relieve (c : Scene) (active : ActiveHandler) : Progress → Scene
  | .waiting | .advanced => c
  | .finished completion => (c.resolve active completion).2
  | .failed _ => (c.outwards active).2

/-- What a delivery comes to, before faults that waited have their turn. -/
def onset (c : Scene) : Signal → Scene
  | .fault f => if c.session.isRunning then (c.route f).2 else c
  | .event e =>
    match c.session.faults.active with
    | some active =>
      if c.session.isRunning ∧ ¬ (e.task = c.session.root.id ∧ e.name.isTerminal) then
        let (progress, engine, s) := active.engine.onEvent e (c.hear e).stage
        ((c.hear e).withHandler active engine s).relieve { active with engine } progress
      else (c.handleEvent e).2
    | none => (c.handleEvent e).2

/-- The faults that waited and have their turn in the course of a delivery. -/
def takenUpBy (c : Scene) (signal : Signal) : List Fault :=
  takenUp (c.onset signal).session.faults.pending (c.onset signal)

theorem onset_handler {e : Event} {active : ActiveHandler}
    (ha : c.session.faults.active = some active) (hr : c.session.isRunning = true)
    (he : ¬ (e.task = c.session.root.id ∧ e.name.isTerminal = true)) {p : Progress}
    {engine : Engine} {s : Stage}
    (h : active.engine.onEvent e (c.hear e).stage = (p, engine, s)) :
    c.onset (.event e) = ((c.hear e).withHandler active engine s).relieve
      { active with engine } p := by
  simp only [onset, ha]
  rw [if_pos ⟨hr, he⟩, h]

/-- Where no handler reacts, an event is handled without any fault having its turn. -/
theorem onset_event {e : Event} (h : c.session.faults.active = none ∨
      c.session.isRunning = false ∨ e.task = c.session.root.id ∧ e.name.isTerminal = true) :
    c.onset (.event e) = (c.handleEvent e).2 := by
  cases ha : c.session.faults.active with
  | none => simp only [onset, ha]
  | some active =>
    have hnot : ¬ (c.session.isRunning = true ∧
        ¬ (e.task = c.session.root.id ∧ e.name.isTerminal = true)) := by
      rintro ⟨hr, he⟩
      rcases h with h | h | h
      · cases ha.symm.trans h
      · cases hr.symm.trans h
      · exact he h
    simp only [onset, ha]
    rw [if_neg hnot]

theorem relieve_deliveries (c : Scene) (active : ActiveHandler) (p : Progress) :
    (c.relieve active p).session.deliveries = c.session.deliveries := by
  cases p with
  | waiting | advanced => rfl
  | finished completion => exact resolve_deliveries c active completion
  | failed error => exact outwards_deliveries c active

theorem handleEvent_halt_deliveries (c : Scene) (e : Event) (reason : String) :
    ((c.hear e).halt reason).2.session.deliveries = c.session.deliveries + 1 := by
  obtain ⟨g, hg, h⟩ := halt_eq (c.hear e) reason
  exact closing_deliveries hg h

/-- A signal that a running session is told of counts once. -/
theorem onset_deliveries (hr : c.session.isRunning = true) (signal : Signal) :
    (c.onset signal).session.deliveries = c.session.deliveries + 1 := by
  cases signal with
  | fault f =>
    rw [onset, if_pos hr]
    exact route_deliveries c f
  | event e =>
    by_cases he : e.task = c.session.root.id ∧ e.name.isTerminal = true
    · rw [onset_event (.inr (.inr he)), handleEvent_root hr he]
      exact handleEvent_halt_deliveries ..
    cases ha : c.session.faults.active with
    | some active =>
      rw [onset_handler ha hr he rfl, relieve_deliveries]
      rfl
    | none =>
      rw [onset_event (.inl ha), handleEvent_model hr ha he rfl, settleModel_deliveries]
      rfl

theorem onset_idle (hr : c.session.isRunning = false) (signal : Signal) : c.onset signal = c := by
  cases signal with
  | fault f => rw [onset, if_neg (by simp [hr])]
  | event e => rw [onset_event (.inr (.inl hr)), handleEvent_idle hr]

/-- Where no fault waits in vain, none has its turn. -/
theorem Caught.drain_pending (h : c.Caught) (o : Outcome) :
    (drain c.session.faults.pending o c).2 = c := by
  by_cases hc : c.Free
  · rw [h hc.1 hc.2]
    rfl
  · rw [drain_rests (.inl hc)]

theorem conclude_drains {handling : Handling} (h : handling.Shown c) (o : Outcome) :
    (c.conclude handling).2 = (drain c.session.faults.pending o c).2 := by
  cases handling with
  | started response =>
    have hcaught : c.Caught := .of_handler h
    exact (hcaught.drain_pending o).symm
  | lost lost =>
    have hcaught : c.Caught := .of_ended h
    exact (hcaught.drain_pending o).symm
  | resolved response model =>
    rw [conclude_resolved]
    exact drain_scene _ c model o

theorem outwards_shown (c : Scene) (active : ActiveHandler) :
    (c.outwards active).1.Shown (c.outwards active).2 := by
  unfold outwards
  split
  · exact engage_shown ..
  · exact exhaust_terminal ..

theorem settleHandler_drains {active : ActiveHandler}
    (ha : c.session.faults.active.isSome = true) (p : Progress) (o : Outcome) :
    (c.settleHandler active p).2 =
      (drain (c.relieve active p).session.faults.pending o (c.relieve active p)).2 := by
  cases p with
  | waiting | advanced =>
    have hcaught : c.Caught := .of_handler ha
    exact (hcaught.drain_pending o).symm
  | finished completion => exact drain_scene ..
  | failed error =>
    rw [settleHandler_failed]
    exact conclude_drains (c.outwards_shown active) o

/-- A delivery is what it comes to at first, and then the turn of the faults that waited. -/
theorem deliver_drains (h : c.Caught) (signal : Signal) (o : Outcome) :
    (c.deliver signal).2 =
      (drain (c.onset signal).session.faults.pending o (c.onset signal)).2 := by
  cases signal with
  | event e =>
    have hsettled : ∀ {c'}, c' = (c.handleEvent e).2 →
        (c.handleEvent e).2 = (drain c'.session.faults.pending o c').2 := by
      rintro c' rfl
      exact ((handleEvent_remaining h e).caught.drain_pending o).symm
    show (c.handleEvent e).2 = _
    cases hr : c.session.isRunning with
    | false => exact hsettled (onset_event (.inr (.inl hr)))
    | true =>
      by_cases he : e.task = c.session.root.id ∧ e.name.isTerminal = true
      · exact hsettled (onset_event (.inr (.inr he)))
      cases ha : c.session.faults.active with
      | none => exact hsettled (onset_event (.inl ha))
      | some active =>
        rw [onset_handler ha hr he rfl, handleEvent_handler hr ha he rfl]
        exact settleHandler_drains rfl _ o
  | fault f =>
    show (c.handleFault f).2 = _
    cases hr : c.session.isRunning with
    | false =>
      rw [onset_idle hr, handleFault_idle hr]
      exact (h.drain_pending o).symm
    | true =>
      rw [onset, if_pos hr]
      have hcaught := (handleFault_waiting h f).1
      unfold handleFault at hcaught ⊢
      rw [if_neg (by simp [hr])] at hcaught ⊢
      cases hroute : c.route f with
      | mk routing c₁ =>
        rw [hroute] at hcaught
        cases routing with
        | unhandled | queued => exact (hcaught.drain_pending o).symm
        | handled handling => exact conclude_drains (route_shown hroute) o

/-! ## What waits -/

theorem relieve_pending {active : ActiveHandler} {p : Progress}
    (h : (c.relieve active p).session.isRunning = true) :
    (c.relieve active p).session.faults.pending = c.session.faults.pending := by
  cases p with
  | waiting | advanced => rfl
  | finished completion => exact resolve_pending h
  | failed error =>
    simp only [relieve, outwards] at h ⊢
    split at h
    · rename_i next c₁ he
      obtain ⟨_, _, hpending⟩ := escalate_ok he
      exact (engage_pending _ h).trans hpending
    · exact absurd h (Status.not_running (exhaust_terminal _ _))

/-- The fault that a call puts behind the active handler. -/
def queuedBy (c : Scene) : Call → List Fault
  | .deliver (.fault f) => if (c.handleFault f).1 = .faultQueued then [f] else []
  | _ => []

/-- What waits before others have their turn waited before, or has to queue. -/
theorem onset_pending {signal : Signal} (h : (c.onset signal).session.isRunning = true) :
    (c.onset signal).session.faults.pending.Sublist
      (c.session.faults.pending ++ c.queuedBy (.deliver signal)) := by
  have hold : ∀ {pending : List Fault}, pending = c.session.faults.pending →
      pending.Sublist (c.session.faults.pending ++ c.queuedBy (.deliver signal)) := by
    rintro _ rfl
    exact List.sublist_append_left _ _
  cases hr : c.session.isRunning with
  | false =>
    rw [onset_idle hr]
    exact hold rfl
  | true =>
    cases signal with
    | event e =>
      by_cases he : e.task = c.session.root.id ∧ e.name.isTerminal = true
      · rw [onset_event (.inr (.inr he)), handleEvent_root hr he] at h
        exact absurd h (Status.not_running (halt_terminal ..))
      cases ha : c.session.faults.active with
      | some active =>
        rw [onset_handler ha hr he rfl] at h ⊢
        exact hold (relieve_pending h)
      | none =>
        rw [onset_event (.inl ha), handleEvent_model hr ha he rfl] at h ⊢
        exact hold (settleModel_pending h)
    | fault f =>
      rw [onset, if_pos hr] at h ⊢
      rw [route_eq] at h ⊢
      cases hd : c.session.faults.decide f (c.session.inReach f) with
      | unhandled => exact hold rfl
      | queue =>
        have hqueued : c.queuedBy (.deliver (.fault f)) = [f] :=
          if_pos (by rw [handleFault_eq hr, hd])
        rw [hqueued]
        show (c.counted.enqueue f).session.faults.pending.Sublist _
        rw [enqueue_faults]
        exact c.session.faults.enqueue_sublist f
      | preempt target =>
        rw [hd] at h
        exact hold ((engage_pending _ h).trans (vacated_pending c))
      | activate target =>
        rw [hd] at h
        exact hold (engage_pending (c := c.counted) _ h)

/-! ## Calls -/

/-- The signal that a call tells a running session of. -/
def toldBy (c : Scene) : Call → List Signal
  | .deliver signal => if c.session.isRunning then [signal] else []
  | _ => []

/-- The faults that waited and have their turn in the course of a call. -/
def turnsOf (c : Scene) : Call → List Fault
  | .deliver signal => c.takenUpBy signal
  | _ => []

/-- What each of a sequence of calls contributes. -/
def along {α : Type} (contributes : Scene → Call → List α) (c : Scene) : List Call → List α
  | [] => []
  | call :: rest => contributes c call ++ along contributes (c.call call) rest

theorem start_deliveries (c : Scene) : c.start.2.session.deliveries = c.session.deliveries := by
  unfold start
  split
  · rfl
  extract_lets begun
  split
  · exact settleModel_deliveries ..
  · rename_i error _
    obtain ⟨g, hg, h⟩ := fail_eq begun error
    exact closing_deliveries (c := begun) hg h

theorem stop_deliveries (c : Scene) : c.stop.2.session.deliveries = c.session.deliveries := by
  unfold stop
  split
  · obtain ⟨g, hg, h⟩ := halt_eq c "stopped by owner"
    exact closing_deliveries hg h
  · rfl
  · rfl

/-- A signal that a running session is told of counts, and so do the faults that have their turn. -/
theorem deliver_deliveries (h : c.Caught) (hr : c.session.isRunning = true) (signal : Signal) :
    (c.deliver signal).2.session.deliveries =
      c.session.deliveries + 1 + (c.takenUpBy signal).length := by
  rw [deliver_drains h signal .waiting, drain_deliveries, onset_deliveries hr]
  rfl

/-- A call counts the signal that it tells of and the faults that have their turn. -/
theorem call_deliveries (h : c.Caught) (call : Call) : (c.call call).session.deliveries =
    c.session.deliveries + (c.toldBy call).length + (c.turnsOf call).length := by
  cases call with
  | start => exact start_deliveries c
  | stop => exact stop_deliveries c
  | drive command =>
    show (c.drive command).session.deliveries = c.session.deliveries
    rw [drive_session]
  | deliver signal =>
    show (c.deliver signal).2.session.deliveries = _
    cases hr : c.session.isRunning with
    | true => simp [deliver_deliveries h hr, toldBy, hr, turnsOf]
    | false =>
      rw [deliver_drains h signal .waiting, drain_deliveries]
      simp [onset_idle hr, toldBy, hr, turnsOf, takenUpBy]

theorem start_pending (c : Scene) : c.start.2.session.isRunning = true →
    c.start.2.session.faults.pending = c.session.faults.pending := by
  unfold start
  split
  · exact fun _ => rfl
  extract_lets begun
  split
  · exact settleModel_pending
  · exact fun hr => absurd hr (Status.not_running (fail_terminal ..))

theorem stop_pending (c : Scene) : c.stop.2.session.isRunning = true →
    c.stop.2.session.faults.pending = c.session.faults.pending := by
  unfold stop
  split
  · exact fun hr => absurd hr (Status.not_running (halt_terminal ..))
  · exact fun _ => rfl
  · exact fun _ => rfl

/-- What has its turn in a call, and what waits after it, waited before or was queued by it, each
once. -/
theorem call_left (h : c.Caught) (hs : c.Sound) (call : Call) :
    (c.turnsOf call ++ (c.call call).session.faults.pending).Sublist
      (c.session.faults.pending ++ c.queuedBy call) := by
  have hold : ∀ {pending : List Fault}, pending = c.session.faults.pending →
      ([] ++ pending).Sublist (c.session.faults.pending ++ c.queuedBy call) := by
    rintro _ rfl
    exact List.sublist_append_left _ _
  cases hr : (c.call call).session.isRunning with
  | false =>
    rw [((hs.call call).rest hr).2, List.append_nil]
    cases call with
    | start | stop | drive => exact List.nil_sublist _
    | deliver signal =>
      by_cases hon : (c.onset signal).session.isRunning = true
      · exact (takenUp_sublist _ _).trans (onset_pending hon)
      · have hnone : c.turnsOf (.deliver signal) = [] := takenUp_rests (fun hc => hon hc.1) _
        rw [hnone]
        exact List.nil_sublist _
  | true =>
    cases call with
    | start => exact hold (c.start_pending hr)
    | stop => exact hold (c.stop_pending hr)
    | drive command =>
      exact hold (congrArg (fun session => session.faults.pending) (drive_session c command))
    | deliver signal =>
      have hdrained := deliver_drains h signal .waiting
      have hr' : (c.deliver signal).2.session.isRunning = true := hr
      show (c.takenUpBy signal ++ (c.deliver signal).2.session.faults.pending).Sublist _
      rw [hdrained] at hr' ⊢
      rw [takenUpBy, drain_left _ .waiting (fun _ => rfl) hr']
      exact onset_pending (running_of_drain hr')

/-! ## Sequences of calls -/

/-- A session has counted what it was told of while it ran, and the faults that had their turn. -/
theorem after_deliveries (h : c.Caught) (hs : c.Sound) (calls : List Call) :
    (c.after calls).session.deliveries = c.session.deliveries +
      (c.along toldBy calls).length + (c.along turnsOf calls).length := by
  induction calls generalizing c with
  | nil => rfl
  | cons call rest ih =>
    have hrest := ih (call_waiting h hs call).1 (hs.call call)
    have hcall := call_deliveries h call
    show ((c.call call).after rest).session.deliveries = _
    simp only [along, List.length_append]
    omega

/-- Of the faults that waited or were queued each has at most one turn, in the order in which they
came, and what still waits comes after. -/
theorem after_left (h : c.Caught) (hs : c.Sound) (calls : List Call) :
    (c.along turnsOf calls ++ (c.after calls).session.faults.pending).Sublist
      (c.session.faults.pending ++ c.along queuedBy calls) := by
  induction calls generalizing c with
  | nil => simp [along, after]
  | cons call rest ih =>
    have hrest := ih (call_waiting h hs call).1 (hs.call call)
    have hcall := call_left h hs call
    show (c.turnsOf call ++ (c.call call).along turnsOf rest ++
        ((c.call call).after rest).session.faults.pending).Sublist
      (c.session.faults.pending ++ (c.queuedBy call ++ (c.call call).along queuedBy rest))
    rw [List.append_assoc, ← List.append_assoc c.session.faults.pending]
    refine (hrest.append_left (c.turnsOf call)).trans ?_
    rw [← List.append_assoc]
    exact hcall.append_right _

end Scene

end Conductor
