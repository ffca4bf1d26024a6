import Conductor.Proofs.Session.Escalation
import Conductor.Proofs.Session.Lanes
import Conductor.Proofs.Stage.Requests

/-!
Ends that last. A session goes from its creation through its run to an end, or from its creation to
an end at once. Whenever it does not run it is at rest: no handler is active, no fault waits, no
slot is filled, neither lane waits for anything and the engine of the model stands still. What is
done with it then comes to nothing, and once it has ended that is so for good.
-/

namespace Conductor

namespace Status

/-- A step forward in the life of a session. -/
inductive Moves : Status → Status → Prop where
  | start : Moves created running
  | cancel : Moves created stopped
  | finish {s : Status} : s.isTerminal = true → Moves running s

abbrev Leads : Status → Status → Prop := Relation.ReflTransGen Moves

theorem Moves.finish_of {s s' : Status} (hr : s.isRunning = true) (ht : s'.isTerminal = true) :
    s.Moves s' := by
  rw [Status.eq_running hr]
  exact .finish ht

end Status

theorem Scene.status_enqueue (c : Scene) (f : Fault) :
    (c.enqueue f).session.status = c.session.status := by
  obtain ⟨trail, he⟩ := c.enqueue_eq f
  rw [he]
  rfl

open Scene in
/-- A turn leaves the status as it is or takes it one step forward. -/
theorem Turn.status {m m' : Moment} (h : Turn m m') :
    m'.scene.session.status = m.scene.session.status ∨
      m.scene.session.status.Moves m'.scene.session.status := by
  cases h with
  | begin hc =>
    right
    rw [hc]
    exact .start
  | cancel hc =>
    right
    rw [hc]
    exact .cancel
  | hear | count | model | handler | unhandled | draw | trigger | install | resolve | escalate =>
    exact .inl rfl
  | @queue c f => exact .inl (c.status_enqueue f)
  | @displace c => exact .inl c.abandonHandler_status
  | @exhaust c f hr => exact .inr (.finish_of hr (exhaust_terminal c f))
  | @succeed c completion hr => exact .inr (.finish_of hr (succeed_terminal c completion))
  | @fail c error hr _ => exact .inr (.finish_of hr (fail_terminal c error))
  | @halt c reason hr => exact .inr (.finish_of hr (halt_terminal c reason))

/-- Nothing is going on in a session, and nothing is kept for later. -/
structure Session.AtRest (s : Session) : Prop where
  handler : s.faults.active = none
  pending : s.faults.pending = []
  slots : s.core.slots.live = []
  interests : ∀ lane, s.core.interests.lane lane = .empty
  engine : s.engine.isRunning = false

/-! ## Calls -/

namespace Scene

variable {c c' : Scene}

theorem retireEverything_atRest (c : Scene) : c.retireEverything.session.AtRest where
  handler := (cleared_faults c).1
  pending := (cleared_faults c).2
  slots := c.retireEverything_live
  interests lane := by
    rw [retireEverything_eq, withEngine_core, Stage.retireAll_interests]
    cases lane <;> rfl
  engine := by
    rw [retireEverything_eq, withEngine_engine]
    simp only [Engine.isRunning, Engine.status, Engine.stop, Engine.withCourse_course, Course.stop,
      Course.close]
    split
    · rfl
    · simpa using ‹_›

theorem closing_atRest {g : Session → Session} (hg : Closing g)
    (hc : c' = c.retireEverything.map g) : c'.session.AtRest := by
  have h := c.retireEverything_atRest
  subst hc
  refine ⟨?_, ?_, ?_, fun lane => ?_, ?_⟩
  · simpa only [map, hg.faults] using h.handler
  · simpa only [map, hg.faults] using h.pending
  · simpa only [map, hg.slots] using h.slots
  · simpa only [map, hg.interests] using h.interests lane
  · simpa only [map, hg.engine] using h.engine

/-- Unless it runs, a session is at rest. -/
def Resting (c : Scene) : Prop := c.session.isRunning = false → c.session.AtRest

theorem Resting.of_running (hr : c.session.isRunning = true) : c.Resting :=
  fun hn => nomatch hr.symm.trans hn

/-- A turn after which the session does not run cancels it or ends it. -/
theorem Resting.turn {m m' : Moment} (ht : Turn m m') (h : m.scene.Resting) :
    m'.scene.Resting := by
  cases ht with
  | begin => exact .of_running rfl
  | cancel hcreated =>
    have hrest := h (congrArg Status.isRunning hcreated)
    exact fun _ => ⟨hrest.handler, hrest.pending, hrest.slots, hrest.interests, hrest.engine⟩
  | hear _ hr | count _ hr | model hr | handler hr | unhandled hr | draw hr | trigger _ hr
  | install _ hr | resolve _ hr | escalate hr => exact .of_running hr
  | @queue c f hr => exact .of_running (Session.running_of_same (c.status_enqueue f) hr)
  | @displace c _ _ hr => exact .of_running (Session.running_of_same c.abandonHandler_status hr)
  | @exhaust c f =>
    obtain ⟨g, hg, he⟩ := fail_eq (c.giveUp f) .escalationExhausted
    exact fun _ => closing_atRest hg he
  | succeed completion =>
    obtain ⟨g, hg, he⟩ := succeed_eq _ completion
    exact fun _ => closing_atRest hg he
  | fail error =>
    obtain ⟨g, hg, he⟩ := fail_eq _ error
    exact fun _ => closing_atRest hg he
  | halt reason =>
    obtain ⟨g, hg, he⟩ := halt_eq _ reason
    exact fun _ => closing_atRest hg he

theorem Resting.call (h : c.Resting) (hs : c.Sound) (call : Call) : (c.call call).Resting := by
  refine (call_preserves (P := Resting) (fun _ _ ht _ h => h.turn ht) hs call ?_ h).1
  intro command _ hrest
  rw [Resting, drive_session]
  exact hrest

/-- A call takes the status forward, if it changes it. -/
theorem call_leads (hs : c.Sound) (call : Call) :
    c.session.status.Leads (c.call call).session.status := by
  refine (call_preserves (P := fun d => c.session.status.Leads d.session.status) ?_ hs call ?_
    .refl).1
  · intro m m' ht _ h
    rcases ht.status with hsame | hmove
    · rwa [hsame]
    · exact h.tail hmove
  · intro command _ _
    rw [drive_session]

theorem after_leads (hs : c.Sound) (calls : List Call) :
    c.session.status.Leads (c.after calls).session.status := by
  refine (after_keeps (P := fun d => c.session.status.Leads d.session.status ∧ d.Sound) ?_
    ⟨.refl, hs⟩ calls).1
  rintro d call ⟨h, hd⟩
  exact ⟨h.trans (call_leads hd call), hd.call call⟩

/-! What is done with a session that does not run comes to nothing. -/

theorem deliver_idle (hn : c.session.isRunning = false) (signal : Signal) :
    c.deliver signal = (.ignored, c) := by
  cases signal with
  | event e => exact handleEvent_idle hn e
  | fault f => exact handleFault_idle hn f

theorem start_refused (h : c.session.status ≠ .created) :
    c.start = (.error .alreadyRunning, c) := by
  rw [start, if_pos h]

theorem stop_ended (h : c.session.status.isTerminal = true) : c.stop = (.ignored, c) := by
  unfold stop
  split
  · rename_i hs
    rw [hs] at h
    cases h
  · rename_i hs
    rw [hs] at h
    cases h
  · rfl

end Scene

/-! ## Sessions -/

namespace Session

theorem Unstarted.atRest {root : Handle} {s : Session} (h : s.Unstarted root) : s.AtRest := by
  have hfresh := h.fresh
  refine ⟨hfresh.active, hfresh.pending, by rw [hfresh.slots]; rfl, fun lane => ?_, ?_⟩
  · induction h with
    | new => cases lane <;> rfl
    | withConfig _ hs ih | withCatalog _ hs ih | withTable _ hs ih => exact ih hs.fresh
  · induction h with
    | new id model => cases model <;> rfl
    | withConfig _ hs ih | withCatalog _ hs ih | withTable _ hs ih => exact ih hs.fresh

namespace Reachable

variable {s : Session}

theorem resting (h : s.Reachable) (p : Plan) : Scene.Resting ⟨s, p⟩ := by
  induction h generalizing p with
  | unstarted hu => exact fun _ => hu.atRest
  | call q call hr ih => exact (ih q).call (hr.sound q) call
  | taken _ ih =>
    intro hn
    have hrest := ih p hn
    exact ⟨hrest.handler, hrest.pending, hrest.slots, fun lane => by
      cases lane with
      | model => exact hrest.interests .model
      | handler => exact hrest.interests .handler, hrest.engine⟩

/-- Whatever calls a session has seen, its status goes forward only, and once it has ended nothing
that is done with it changes it. Unless it runs, it is at rest and ignores every signal. It is
started only once, and stopped in vain after its end; what is refused or ignored leaves session and
plan as they were. -/
theorem ends_last (h : s.Reachable) (p : Plan) :
    (∀ calls, s.status.Leads (Scene.after ⟨s, p⟩ calls).session.status) ∧
    (s.status.isTerminal = true → ∀ calls, (Scene.after ⟨s, p⟩ calls).session = s) ∧
    (s.isRunning = false →
      s.AtRest ∧
      (∀ e, Scene.handleEvent ⟨s, p⟩ e = (.ignored, ⟨s, p⟩)) ∧
      (∀ f, Scene.handleFault ⟨s, p⟩ f = (.ignored, ⟨s, p⟩)) ∧
      ∀ signal, Scene.deliver ⟨s, p⟩ signal = (.ignored, ⟨s, p⟩)) ∧
    (s.status ≠ .created → Scene.start ⟨s, p⟩ = (.error .alreadyRunning, ⟨s, p⟩)) ∧
    (s.status.isTerminal = true → Scene.stop ⟨s, p⟩ = (.ignored, ⟨s, p⟩)) := by
  refine ⟨?_, ?_, ?_, ?_, ?_⟩
  · exact Scene.after_leads (h.sound p)
  · exact fun ht => Scene.after_of_terminal ht
  · intro hn
    exact ⟨h.resting p hn, fun e => Scene.deliver_idle hn (.event e),
      fun f => Scene.deliver_idle hn (.fault f), Scene.deliver_idle hn⟩
  · exact fun hcreated => Scene.start_refused hcreated
  · exact fun ht => Scene.stop_ended ht

end Reachable

/-- A session that ended because no table was left for a fault. -/
def exhausted : Session :=
  (Scene.after ⟨sample.withTable (.rash [] true), .sample⟩
    [.start, .deliver (.fault .ofTask)]).session

theorem ends_last_exhausted :
    exhausted.Reachable ∧ exhausted.status = .failed .escalationExhausted ∧ exhausted.AtRest ∧
      ∀ calls, (Scene.after ⟨exhausted, .sample⟩ calls).session = exhausted := by
  have hreachable : exhausted.Reachable :=
    (Reachable.unstarted (.withTable _ sample_unstarted)).after .sample
      [.start, .deliver (.fault .ofTask)]
  have hstatus : exhausted.status = .failed .escalationExhausted := by decide
  obtain ⟨_, hlast, hrest, _⟩ := hreachable.ends_last .sample
  exact ⟨hreachable, hstatus, (hrest (by rw [isRunning, hstatus]; rfl)).1,
    hlast (by rw [hstatus]; rfl)⟩

end Session

end Conductor
