import Conductor.Proofs.Session.Queue

/-!
Outcomes of deliveries. What is reported of a signal is rewritten on its way out of the handlers
that it made start, finish and fail, and is still what the session has come to: an end is reported
exactly when the session ended, and a handler only when it is the one that runs.
-/

namespace Conductor

/-- The status of a session that has ended with an outcome. -/
def Outcome.status? : Outcome → Option Status
  | .succeeded completion => some (.succeeded completion)
  | .recovered completion => some (.recovered completion)
  | .failed error => some (.failed error)
  | .stopped => some .stopped
  | _ => none

/-- An outcome agrees with the session that it is reported of. -/
structure Outcome.Agrees (o : Outcome) (s : Session) : Prop where
  heard : o ≠ .ignored
  ends : o.isTerminal = true ↔ s.status.isTerminal = true
  succeeded : ∀ completion, o = .succeeded completion ↔ s.status = .succeeded completion
  recovered : ∀ completion, o = .recovered completion ↔ s.status = .recovered completion
  failed : ∀ error, o = .failed error ↔ s.status = .failed error
  stopped : o = .stopped ↔ s.status = .stopped
  started : ∀ response, o = .handlerStarted response →
    s.isRunning = true ∧ s.activeHandler? = some response
  resolved : ∀ response, o = .faultResolved response →
    s.isRunning = true ∧ s.faults.active = none ∧ s.faults.pending = []
  queued : o = .faultQueued → s.faults.active.isSome = true

namespace Scene

variable {c c' : Scene} {o : Outcome} {f : Fault}

/-- The session has ended the way an outcome says. -/
def Ended (c : Scene) (o : Outcome) : Prop := o.status? = some c.session.status

/-- The session goes on without a handler. -/
def Free (c : Scene) : Prop := c.session.isRunning = true ∧ c.session.faults.active = none

/-- The session goes on with the handler of a response. -/
def Runs (c : Scene) (response : String) : Prop :=
  c.session.isRunning = true ∧ c.session.activeHandler? = some response

/-- What the normal model comes to while no handler runs. -/
inductive Acted (c : Scene) : Outcome → Prop where
  | waiting : c.Free → Acted c .waiting
  | advanced : c.Free → Acted c .advanced
  | ended {o : Outcome} : c.Ended o → Acted c o

/-- What the faults that waited come to. -/
inductive Drained (c : Scene) : Outcome → Prop where
  | acted {o : Outcome} : c.Acted o → Drained c o
  | started {response : String} : c.Runs response → Drained c (.handlerStarted response)

/-- What the handlers of a fault come to. -/
inductive Handled (c : Scene) : Handling → Prop where
  | started {response : String} : c.Runs response → Handled c (.started response)
  | resolved {response : String} {model : Outcome} :
    c.Acted model → Handled c (.resolved response model)
  | lost {o : Outcome} : c.Ended o → Handled c (.lost o)

/-- What is reported of a signal. -/
inductive Reports (c : Scene) : Outcome → Prop where
  | waiting : c.session.isRunning = true → Reports c .waiting
  | advanced : c.session.isRunning = true → Reports c .advanced
  | unhandled : c.session.isRunning = true → Reports c .faultUnhandled
  | queued : c.session.isRunning = true → c.session.faults.active.isSome = true →
    Reports c .faultQueued
  | started {response : String} : c.Runs response → Reports c (.handlerStarted response)
  | resolved {response : String} : c.Free → c.session.faults.pending = [] →
    Reports c (.faultResolved response)
  | ended {o : Outcome} : c.Ended o → Reports c o

/-! ## Agreement -/

theorem Ended.agrees (h : c.Ended o) : o.Agrees c.session := by
  unfold Ended at h
  cases o with
  | ignored | waiting | advanced | handlerStarted | faultResolved | faultQueued
  | faultUnhandled => cases h
  | succeeded completion | recovered completion | failed error | stopped =>
    have hs := Option.some.inj h
    constructor <;> simp [← hs, Outcome.isTerminal, Status.isTerminal]

theorem Reports.agrees (h : c.Reports o) : o.Agrees c.session := by
  cases h with
  | waiting hr | advanced hr | unhandled hr =>
    have hs := Status.eq_running hr
    constructor <;> simp [hs, Outcome.isTerminal, Status.isTerminal]
  | queued hr ha =>
    have hs := Status.eq_running hr
    constructor <;> simp [hs, ha, Outcome.isTerminal, Status.isTerminal]
  | started h =>
    have hs := Status.eq_running h.1
    constructor <;> simp [hs, h.1, h.2, Outcome.isTerminal, Status.isTerminal]
  | resolved h hp =>
    have hs := Status.eq_running h.1
    constructor <;> simp [hs, h.1, h.2, hp, Outcome.isTerminal, Status.isTerminal]
  | ended h => exact h.agrees

theorem Acted.reports (h : c.Acted o) : c.Reports o := by
  cases h with
  | waiting h => exact .waiting h.1
  | advanced h => exact .advanced h.1
  | ended h => exact .ended h

theorem Drained.reports (h : c.Drained o) : c.Reports o := by
  cases h with
  | acted h => exact h.reports
  | started h => exact .started h

theorem Ended.terminal (h : c.Ended o) :
    o.isTerminal = true ∧ c.session.status.isTerminal = true := by
  unfold Ended at h
  cases o with
  | ignored | waiting | advanced | handlerStarted | faultResolved | faultQueued
  | faultUnhandled => cases h
  | succeeded completion | recovered completion | failed error | stopped =>
    rw [← Option.some.inj h]
    exact ⟨rfl, rfl⟩

theorem Acted.goes_on (h : c.Acted o) (hr : c.session.isRunning = true) : o.isTerminal = false := by
  cases h with
  | waiting | advanced => rfl
  | ended h => exact absurd hr (Status.not_running h.terminal.2)

/-- As long as the model has not ended the session, no handler runs. -/
theorem Acted.free (h : c.Acted o) (ho : o.isTerminal = false) : c.Free := by
  cases h with
  | waiting h | advanced h => exact h
  | ended h => exact absurd (h.terminal.1.symm.trans ho) (by simp)

theorem Acted.of_free (h : c.Acted o) (ho : o.isTerminal = false) (hc : c'.Free) : c'.Acted o := by
  cases h with
  | waiting => exact .waiting hc
  | advanced => exact .advanced hc
  | ended h => exact absurd (h.terminal.1.symm.trans ho) (by simp)

/-! ## Ends -/

theorem succeed_ended (c : Scene) (completion : Completion) :
    (c.succeed completion).2.Ended (c.succeed completion).1 := by
  unfold succeed
  split <;> rfl

theorem fail_ended (c : Scene) (error : Error) : (c.fail error).2.Ended (c.fail error).1 := rfl

theorem halt_ended (c : Scene) (reason : String) : (c.halt reason).2.Ended (c.halt reason).1 :=
  rfl

theorem exhaust_ended (c : Scene) (f : Fault) : (c.exhaust f).2.Ended (c.exhaust f).1 := rfl

/-! ## Handlers -/

theorem settleModel_acted (h : c.Free) (p : Progress) :
    (c.settleModel p).2.Acted (c.settleModel p).1 := by
  cases p with
  | waiting => exact .waiting h
  | advanced => exact .advanced h
  | finished completion => exact .ended (succeed_ended c completion)
  | failed error => exact .ended (fail_ended c error)

theorem resolve_acted (hr : c.session.isRunning = true) (active : ActiveHandler)
    (completion : Completion) :
    (c.resolve active completion).2.Acted (c.resolve active completion).1 := by
  rw [resolve_eq]
  refine settleModel_acted ?_ _
  exact ⟨hr, endHandler_active c active .resolved⟩

/-- The handler that was started is that of the response. -/
theorem startHandler_runs {target : Target} {d : Disposition} {p : Progress}
    (hr : c.session.isRunning = true)
    (ht : c.session.faults.response? target.table target.entry = some target.response)
    (h : c.startHandler target f d = (p, c')) : c'.Runs target.response.name := by
  obtain ⟨hstatus, _, active, ha, _⟩ := startHandler_ok h
  obtain ⟨htable, hentry, _, hresponses⟩ := startHandler_target h ha
  refine ⟨Session.running_of_same hstatus hr, ?_⟩
  simp only [Session.activeHandler?, ha, Option.bind_some, htable, hentry,
    Dispatch.response?_congr hresponses, ht, Option.map_some]

theorem engage_handled (fuel : Nat) {target : Target} {d : Disposition}
    (hr : c.session.isRunning = true)
    (ht : c.session.faults.response? target.table target.entry = some target.response) :
    (engage fuel c target f d).2.Handled (engage fuel c target f d).1 := by
  -- Each handler that fails leaves a running session and a response that the tables have.
  induction fuel generalizing c target d with
  | zero => exact .lost (exhaust_ended c f)
  | succ fuel ih =>
    cases hs : c.startHandler target f d with
    | mk p c₁ =>
      obtain ⟨_, _, active, ha, _⟩ := startHandler_ok hs
      have hruns := startHandler_runs hr ht hs
      simp only [engage, hs, ha]
      cases p with
      | waiting | advanced => exact .started hruns
      | finished completion => exact .resolved (resolve_acted hruns.1 active completion)
      | failed error =>
        simp only
        split
        · rename_i next c₂ he
          obtain ⟨hstatus, _, _⟩ := escalate_ok he
          exact ih (Session.running_of_same hstatus hruns.1) (escalate_found he)
        · exact .lost (exhaust_ended _ f)

/-! ## Faults -/

theorem vacated_status (c : Scene) : c.vacated.session.status = c.session.status := by
  unfold vacated
  cases c.counted.abandonHandler.1 <;> exact abandonHandler_status c.counted

theorem vacated_responses (c : Scene) :
    c.vacated.session.faults.responses = c.session.faults.responses := by
  unfold vacated
  cases c.counted.abandonHandler.1 <;> exact abandonHandler_responses c.counted

theorem vacated_found {target : Target}
    (h : c.session.faults.decide f (c.session.inReach f) = .preempt target) :
    c.vacated.session.faults.response? target.table target.entry = some target.response :=
  (Dispatch.response?_congr (vacated_responses c) ..).trans (decide_found (.inr h))

theorem route_handled (hr : c.session.isRunning = true) {handling : Handling}
    (h : c.route f = (.handled handling, c')) : c'.Handled handling := by
  rw [route_eq] at h
  cases hd : c.session.faults.decide f (c.session.inReach f) with
  | unhandled | queue =>
    rw [hd] at h
    cases h
  | preempt target =>
    rw [hd] at h
    cases h
    exact engage_handled _ (Session.running_of_same (vacated_status c) hr) (vacated_found hd)
  | activate target =>
    rw [hd] at h
    cases h
    exact engage_handled _ hr (decide_found (.inl hd))

/-- Without a handler no fault has to queue, and one that nobody is meant for changes nothing. -/
theorem route_free (hc : c.Free) {routing : Routing} (h : c.route f = (routing, c')) :
    (∃ handling, routing = .handled handling) ∨ c'.Free := by
  rw [route_eq] at h
  cases hd : c.session.faults.decide f (c.session.inReach f) with
  | unhandled =>
    rw [hd] at h
    cases h
    exact .inr hc
  | queue =>
    obtain ⟨active, ha⟩ := decide_displace (.inr hd)
    exact absurd (hc.2.symm.trans ha) (by simp)
  | preempt target | activate target =>
    rw [hd] at h
    cases h
    exact .inl ⟨_, rfl⟩

theorem drain_drained (faults : List Fault) (h : c.Acted o) :
    (drain faults o c).2.Drained (drain faults o c).1 := by
  induction faults generalizing c with
  | nil => exact .acted h
  | cons f rest ih =>
    simp only [drain]
    split
    · rename_i hgoing
      obtain ⟨hr, hsuspended⟩ : c.session.isRunning = true ∧ c.session.isSuspended = false := by
        simpa using hgoing
      have ha : c.session.faults.active = none := by
        simpa [Session.isSuspended, Dispatch.isHandling] using hsuspended
      have hfree : (c.withPending rest).Free := ⟨hr, ha⟩
      -- The model goes on, so its outcome still holds once a fault is settled without a handler.
      have ho := h.goes_on hr
      split
      · rename_i response c' hroute
        cases route_handled hfree.1 hroute with
        | started h => exact .started h
      · rename_i lost c' hroute
        cases route_handled hfree.1 hroute with
        | lost h => exact .acted (.ended h)
      · rename_i response model c' hroute
        cases route_handled hfree.1 hroute with
        | resolved hmodel =>
          split
          · exact .acted hmodel
          · rename_i hon
            exact ih (h.of_free ho (hmodel.free (by simpa using hon)))
      · rename_i routing c' hstarted hlost hresolved hroute
        refine ih (h.of_free ho ?_)
        rcases route_free hfree hroute with ⟨handling, rfl⟩ | hfree
        · cases handling <;> simp_all
        · exact hfree
    · exact .acted h

theorem conclude_reports {handling : Handling} (h : c.Handled handling) :
    (c.conclude handling).2.Reports (c.conclude handling).1 := by
  cases h with
  | started h => exact .started h
  | lost h => exact .ended h
  | @resolved response model h =>
    have hdrained := drain_drained c.session.faults.pending h
    have hcaught := (drain_remaining (c := c) c.session.faults.pending model fun _ => rfl).caught
    have hresolved : (drain c.session.faults.pending model c).2.Free →
        (drain c.session.faults.pending model c).2.Reports (.faultResolved response) :=
      fun hfree => .resolved hfree (hcaught hfree.1 hfree.2)
    simp only [conclude]
    split
    · rename_i c' hd
      rw [hd] at hdrained hresolved
      cases hdrained with
      | acted h => exact hresolved (h.free rfl)
    · rename_i c' hd
      rw [hd] at hdrained hresolved
      cases hdrained with
      | acted h => exact hresolved (h.free rfl)
    · rename_i hd
      rw [hd] at hdrained
      exact hdrained.reports

/-! ## Calls -/

theorem settleHandler_reports {active : ActiveHandler} (hr : c.session.isRunning = true)
    (p : Progress) : (c.settleHandler active p).2.Reports (c.settleHandler active p).1 := by
  cases p with
  | waiting => exact .waiting hr
  | advanced => exact .advanced hr
  | finished completion => exact (drain_drained _ (resolve_acted hr active completion)).reports
  | failed error =>
    simp only [settleHandler]
    split
    · rename_i next c' he
      obtain ⟨hstatus, _, _⟩ := escalate_ok he
      have hr' := Session.running_of_same hstatus hr
      exact conclude_reports (engage_handled _ hr' (escalate_found he))
    · exact .ended (exhaust_ended _ _)

theorem handleEvent_reports (hr : c.session.isRunning = true) (e : Event) :
    (c.handleEvent e).2.Reports (c.handleEvent e).1 := by
  by_cases he : e.task = c.session.root.id ∧ e.name.isTerminal = true
  · rw [handleEvent_root hr he]
    exact .ended (halt_ended _ _)
  cases ha : c.session.faults.active with
  | some active =>
    rw [handleEvent_handler hr ha he rfl]
    refine settleHandler_reports ?_ _
    exact hr
  | none =>
    rw [handleEvent_model hr ha he rfl]
    refine (settleModel_acted ?_ _).reports
    exact ⟨hr, ha⟩

theorem handleFault_reports (hr : c.session.isRunning = true) (f : Fault) :
    (c.handleFault f).2.Reports (c.handleFault f).1 := by
  rw [handleFault_eq hr]
  cases hd : c.session.faults.decide f (c.session.inReach f) with
  | unhandled => exact .unhandled hr
  | queue =>
    obtain ⟨active, ha⟩ := decide_displace (.inr hd)
    refine .queued (Session.running_of_same (enqueue_status c f) hr) ?_
    rw [enqueue_active, ha]
    rfl
  | preempt target =>
    have hr' := Session.running_of_same (vacated_status c) hr
    exact conclude_reports (engage_handled _ hr' (vacated_found hd))
  | activate target => exact conclude_reports (engage_handled _ hr (decide_found (.inl hd)))

/-- Delivered to a session that runs, a signal has an outcome that agrees with what became of the
session. -/
theorem deliver_reports (hr : c.session.isRunning = true) (signal : Signal) :
    (c.deliver signal).2.Reports (c.deliver signal).1 := by
  cases signal with
  | event e => exact handleEvent_reports hr e
  | fault f => exact handleFault_reports hr f

theorem start_reports (hidle : c.session.status = .created → c.session.faults.active = none)
    (h : c.start = (.ok o, c')) : c'.Reports o := by
  unfold start at h
  split at h
  · cases h
  rename_i hcreated
  have ha := hidle (Decidable.not_not.mp hcreated)
  extract_lets begun at h
  split at h
  · cases h
    refine (settleModel_acted ?_ _).reports
    exact ⟨rfl, ha⟩
  · cases h

end Scene

/-- Whatever was done with a session before, the outcome of a signal that it hears while it runs
agrees with what became of it, and so does the outcome of a start that is not refused. -/
theorem outcome_agrees {root : Handle} {s : Session} (hs : s.Unstarted root) (p : Plan)
    (calls : List Call) :
    let c := Scene.after ⟨s, p⟩ calls
    (c.session.isRunning = true → ∀ signal,
      (c.deliver signal).1.Agrees (c.deliver signal).2.session) ∧
    ∀ o c', c.start = (.ok o, c') → o.Agrees c'.session := by
  intro c
  have hsound : c.Sound := (hs.fresh.sound p).after calls
  have hidle : c.session.status = .created → c.session.faults.active = none :=
    fun hcreated => (hsound.rest (congrArg Status.isRunning hcreated)).1
  exact ⟨fun hr signal => (Scene.deliver_reports hr signal).agrees,
    fun _ _ h => (Scene.start_reports hidle h).agrees⟩

theorem outcome_agrees_mending :
    let c := Scene.after ⟨Session.sample.withTable .sample, .sample⟩ [.start]
    (c.deliver (.fault .sample)).1 = .handlerStarted "mend" ∧
      (c.deliver (.fault .sample)).1.Agrees (c.deliver (.fault .sample)).2.session := by
  intro c
  have hs : (Session.sample.withTable .sample).Unstarted .sample :=
    .withTable .sample Session.sample_unstarted
  obtain ⟨hdeliver, _⟩ := outcome_agrees hs .sample [.start]
  exact ⟨by decide, hdeliver (by decide) _⟩

end Conductor
