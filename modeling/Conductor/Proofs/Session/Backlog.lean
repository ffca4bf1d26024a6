import Conductor.Proofs.Session.Outcomes
import Conductor.Proofs.Stage.Kept

/-!
The backlog of a session: what becomes of the faults that wait when another one has to wait too. It
goes to the end of the queue, and the oldest makes room for it if the queue is full. Only where no
fault may wait at all, the fault is dropped, though the session reports it as queued.
-/

namespace Conductor

namespace Trail

theorem records_record (t : Trail) (r : Record) :
    (t.record r).records = t.records ++ if t.enabled then [r] else [] := by
  unfold record records
  split <;> simp

theorem recordAll_records (t : Trail) (rs : List Record) :
    (t.recordAll rs).records = t.records ++ if t.enabled then rs else [] := by
  unfold recordAll
  induction rs generalizing t with
  | nil => simp
  | cons r rest ih =>
    rw [List.foldl_cons, ih, records_record, record_enabled]
    split <;> simp

end Trail

namespace Dispatch

variable {d : Dispatch}

/-- The fault that has to make room when another one comes: the oldest, if the queue is full. -/
def outgoing? (d : Dispatch) : Option Fault :=
  if d.pending.length = d.limit then d.pending.head? else none

/-- The faults that stay when another one comes. -/
def staying (d : Dispatch) : List Fault :=
  if d.pending.length = d.limit then d.pending.tail else d.pending

theorem outgoing_staying (d : Dispatch) : d.outgoing?.toList ++ d.staying = d.pending := by
  unfold outgoing? staying
  split
  · cases d.pending <;> rfl
  · rfl

theorem outgoing?_eq_some {g : Fault} :
    d.outgoing? = some g ↔ d.pending.length = d.limit ∧ d.pending.head? = some g := by
  unfold outgoing?
  split
  · rename_i hfull
    exact (and_iff_right hfull).symm
  · rename_i hfull
    simp [hfull]

theorem staying_length (h : d.pending.length ≤ d.limit) (hl : 0 < d.limit) :
    d.staying.length < d.limit := by
  unfold staying
  split
  · rw [List.length_tail]
    omega
  · omega

/-- Where faults may wait, one that has to goes to the end of the queue. -/
theorem enqueue_room (h : d.pending.length ≤ d.limit) (hl : 0 < d.limit) (f : Fault) :
    d.enqueue f = (d.outgoing?, { d with pending := d.staying ++ [f] }) := by
  unfold enqueue outgoing? staying
  by_cases hfull : d.pending.length = d.limit
  · simp [hfull, hl]
  · have hroom : ¬ d.pending.length ≥ d.limit := by omega
    simp [hroom, hfull, hl]

/-- Where no fault may wait, one that has to is dropped. -/
theorem enqueue_no_room (h : d.pending.length ≤ d.limit) (hl : d.limit = 0) (f : Fault) :
    d.enqueue f = (some f, d) := by
  have hp : d.pending = [] := List.length_eq_zero_iff.mp (by omega)
  cases d
  cases hl
  cases hp
  rfl

theorem enqueue_within (h : d.pending.length ≤ d.limit) (f : Fault) :
    (d.enqueue f).2.pending.length ≤ d.limit := by
  rcases Nat.eq_zero_or_pos d.limit with hl | hl
  · rw [enqueue_no_room h hl]
    exact h
  · rw [enqueue_room h hl, List.length_append, List.length_singleton]
    exact staying_length h hl

/-- Of the faults that wait only as many are left as may. -/
theorem setLimit_within (d : Dispatch) (limit : Nat) :
    (d.setLimit limit).pending.length ≤ limit := by
  simp only [setLimit, List.length_drop]
  omega

end Dispatch

/-! ## The bound -/

/-- No more faults wait than the settings of a session allow. -/
structure Session.Bounded (s : Session) : Prop where
  limit : s.faults.limit = s.config.pendingLimit
  within : s.faults.pending.length ≤ s.faults.limit

namespace Session.Bounded

variable {s s' : Session}

theorem of_same (h : s.Bounded) (hc : s'.config = s.config)
    (hl : s'.faults.limit = s.faults.limit) (hp : s'.faults.pending = s.faults.pending) :
    s'.Bounded where
  limit := by
    rw [hl, hc]
    exact h.limit
  within := by
    rw [hl, hp]
    exact h.within

theorem withConfig (s : Session) (config : Config) : (s.withConfig config).Bounded :=
  ⟨rfl, s.faults.setLimit_within config.pendingLimit⟩

end Session.Bounded

theorem Session.Unstarted.bounded {root : Handle} {s : Session} (h : s.Unstarted root) :
    s.Bounded := by
  induction h with
  | new id model => exact ⟨rfl, Nat.zero_le _⟩
  | @withConfig s config _ _ => exact .withConfig s config
  | withCatalog catalog _ ih | withTable t _ ih => exact ih.of_same rfl rfl rfl

namespace Scene

/-- The bound holds as long as a session has not ended. -/
def Limited (c : Scene) : Prop := c.session.status.isTerminal = true ∨ c.session.Bounded

theorem abandonHandler_config (c : Scene) :
    c.abandonHandler.2.session.config = c.session.config := by
  unfold abandonHandler
  split <;> rfl

/-- Whatever a session does, it keeps to the bound. -/
theorem Limited.turn {m m' : Moment} (ht : Turn m m') (h : m.scene.Limited) :
    m'.scene.Limited := by
  have hb : m.scene.session.Bounded := h.resolve_left ht.not_terminal
  cases ht with
  | begin | hear | count | model | handler | unhandled | trigger =>
    exact .inr (hb.of_same rfl rfl rfl)
  | cancel => exact .inl rfl
  | @queue c f =>
    obtain ⟨trail, he⟩ := c.enqueue_eq f
    obtain ⟨pending, hq⟩ := c.session.faults.enqueue_eq f
    have hl : (c.session.faults.enqueue f).2.limit = c.session.faults.limit := by rw [hq]
    show (c.enqueue f).Limited
    rw [he]
    refine .inr ⟨hl.trans hb.limit, ?_⟩
    exact Nat.le_trans (Dispatch.enqueue_within hb.within f) (Nat.le_of_eq hl.symm)
  | @draw c f rest hr ha hp =>
    have hwithin := hb.within
    simp only [hp, List.length_cons] at hwithin
    exact .inr ⟨hb.limit, Nat.le_of_succ_le hwithin⟩
  | @displace c =>
    exact .inr (hb.of_same (abandonHandler_config c) (abandonHandler_limit c)
      (abandonHandler_pending c))
  | install target => exact .inr (hb.of_same rfl (by simp [install, map]) (by simp [install, map]))
  | @resolve c active =>
    exact .inr (hb.of_same rfl (endHandler_limit c active _) (endHandler_pending c active _))
  | @escalate c active =>
    exact .inr (hb.of_same rfl (endHandler_limit c active _) (endHandler_pending c active _))
  | exhaust => exact .inl (exhaust_terminal ..)
  | succeed => exact .inl (succeed_terminal ..)
  | fail => exact .inl (fail_terminal ..)
  | halt => exact .inl (halt_terminal ..)

end Scene

theorem Session.Reachable.limited {s : Session} (h : s.Reachable) (p : Plan) :
    Scene.Limited ⟨s, p⟩ := by
  induction h generalizing p with
  | unstarted hs => exact .inr hs.bounded
  | call q call hs ih =>
    refine (Scene.call_preserves (P := Scene.Limited) (fun _ _ ht _ h => h.turn ht) (hs.sound q)
      call (fun command _ hc => ?_) (ih q)).1
    unfold Scene.Limited
    rw [Scene.drive_session]
    exact hc
  | taken _ ih => exact (ih p).imp (fun ht => ht) fun hb => hb.of_same rfl rfl rfl

/-! ## Faults that are reported as queued -/

/-- What goes on record when a fault has to wait, and maybe another one has to go. -/
def Fault.waitRecords (f : Fault) (dropped : Option Fault) : List Trail.Record :=
  dropped.toList.map (fun g => .fault g .dropped none) ++ [.fault f .queued none]

namespace Scene

variable {c : Scene} {f : Fault}

theorem enqueue_trail (c : Scene) (f : Fault) :
    (c.enqueue f).session.core.trail =
      c.session.core.trail.recordAll (f.waitRecords (c.session.faults.enqueue f).1) := by
  unfold enqueue
  cases (c.session.faults.enqueue f).1 <;> rfl

theorem Ended.ne_queued {o : Outcome} (h : c.Ended o) : o ≠ .faultQueued := by
  rintro rfl
  cases h

theorem conclude_ne_queued {handling : Handling} (h : c.Handled handling) :
    (c.conclude handling).1 ≠ .faultQueued := by
  cases h with
  | started => simp [conclude]
  | lost h => exact h.ne_queued
  | @resolved response model h =>
    have hdrained := drain_drained c.session.faults.pending h
    simp only [conclude]
    split
    · simp
    · simp
    · rename_i outcome c' _ _ hd
      rw [hd] at hdrained
      cases hdrained with
      | acted h =>
        cases h with
        | waiting | advanced => simp
        | ended h => exact h.ne_queued
      | started => simp

/-- A fault is reported as queued exactly when it is put behind the active handler. -/
theorem handleFault_queued (hr : c.session.isRunning = true)
    (h : (c.handleFault f).1 = .faultQueued) :
    c.session.faults.decide f (c.session.inReach f) = .queue := by
  rw [handleFault_eq hr] at h
  cases hd : c.session.faults.decide f (c.session.inReach f) with
  | queue => rfl
  | unhandled =>
    rw [hd] at h
    cases h
  | preempt target =>
    rw [hd] at h
    have hr' := Session.running_of_same (vacated_status c) hr
    exact absurd h (conclude_ne_queued (engage_handled _ hr' (vacated_found hd)))
  | activate target =>
    rw [hd] at h
    exact absurd h (conclude_ne_queued (engage_handled _ hr (decide_found (.inl hd))))

theorem handleFault_enqueues (h : (c.handleFault f).1 = .faultQueued) :
    c.session.isRunning = true ∧ (∃ active, c.session.faults.active = some active) ∧
      (c.handleFault f).2 = c.counted.enqueue f := by
  cases hr : c.session.isRunning with
  | false =>
    rw [handleFault_idle hr] at h
    cases h
  | true =>
    have hd := handleFault_queued hr h
    refine ⟨rfl, decide_displace (.inr hd), ?_⟩
    rw [handleFault_eq hr, hd]

end Scene

/-- A fault that is reported as queued waits behind the active handler. Where faults may wait, it is
the last one, the others wait in the order they did, and a fault is dropped if and only if it was
the oldest and the queue was full. Where none may wait, the fault itself is dropped, and still goes
on record as queued. -/
theorem queued_waits_last {s : Session} (hs : s.Reachable) {p : Plan} {f : Fault}
    (hq : (Scene.handleFault ⟨s, p⟩ f).1 = .faultQueued) :
    let s' := (Scene.handleFault ⟨s, p⟩ f).2.session
    let limit := s.config.pendingLimit
    ∃ dropped,
      s.faults.active.isSome = true ∧ s'.faults.active = s.faults.active ∧
      s'.faults.pending.length ≤ limit ∧
      s'.core.trail.records = s.core.trail.records ++
        (if s.core.trail.enabled then f.waitRecords dropped else []) ∧
      (0 < limit →
        (∃ others, s.faults.pending = dropped.toList ++ others ∧
          s'.faults.pending = others ++ [f]) ∧
        ∀ g, dropped = some g ↔
          s.faults.pending.length = limit ∧ s.faults.pending.head? = some g) ∧
      (limit = 0 → dropped = some f ∧ s'.faults.pending = []) := by
  intro s' limit
  obtain ⟨hr, ⟨active, hactive⟩, hscene⟩ := Scene.handleFault_enqueues hq
  have hb : s.Bounded := (hs.limited p).resolve_left (fun ht => Status.not_running ht hr)
  have hfaults : s'.faults = (s.faults.enqueue f).2 :=
    (congrArg (fun c => c.session.faults) hscene).trans (Scene.enqueue_faults ..)
  have htrail : s'.core.trail = s.core.trail.recordAll (f.waitRecords (s.faults.enqueue f).1) :=
    (congrArg (fun c => c.session.core.trail) hscene).trans (Scene.enqueue_trail ..)
  have hlimit : limit = s.faults.limit := hb.limit.symm
  have hactive' : s'.faults.active = s.faults.active := by
    obtain ⟨pending, he⟩ := s.faults.enqueue_eq f
    rw [hfaults, he]
  refine ⟨(s.faults.enqueue f).1, by rw [hactive]; rfl, hactive', ?_, ?_, fun hl => ?_,
    fun hl => ?_⟩
  · rw [hfaults, hlimit]
    exact Dispatch.enqueue_within hb.within f
  · rw [htrail, Trail.recordAll_records]
  · rw [hlimit] at hl ⊢
    rw [hfaults, Dispatch.enqueue_room hb.within hl]
    exact ⟨⟨s.faults.staying, s.faults.outgoing_staying.symm, rfl⟩,
      fun g => Dispatch.outgoing?_eq_some⟩
  · rw [hlimit] at hl
    rw [hfaults, Dispatch.enqueue_no_room hb.within hl]
    exact ⟨rfl, List.length_eq_zero_iff.mp (Nat.le_zero.mp (hl ▸ hb.within))⟩

/-! ## A sample -/

/-- Faults other than the sample. -/
def Fault.leak : Fault := { Fault.sample with category := "leak" }

def Fault.smoke : Fault := { Fault.sample with category := "smoke" }

/-- A session in which so many faults may wait as given. Its handler runs because of a jam. -/
def Scene.jammed (limit : Nat) : Scene :=
  Scene.after ⟨(Session.sample.withTable .sample).withConfig { pendingLimit := limit }, .sample⟩
    [.start, .deliver (.fault .sample)]

theorem Scene.jammed_reachable (limit : Nat) : (Scene.jammed limit).session.Reachable :=
  (Session.Reachable.unstarted (.withConfig _ (.withTable _ Session.sample_unstarted))).after
    .sample _

/-- With room for one fault the smoke takes the place of the leak. -/
theorem queued_waits_last_full :
    let c := (Scene.jammed 1).call (.deliver (.fault .leak))
    c.session.faults.pending = [.leak] ∧ (c.handleFault .smoke).1 = .faultQueued ∧
      (c.handleFault .smoke).2.session.faults.pending = [.smoke] ∧
      (c.handleFault .smoke).2.session.core.trail.records = c.session.core.trail.records ++
        [.fault .leak .dropped none, .fault .smoke .queued none] := by
  intro c
  have hp : c.session.faults.pending = [.leak] := by decide +kernel
  have hq : (c.handleFault .smoke).1 = .faultQueued := by decide +kernel
  have hc : c.session.Reachable := .call _ _ (Scene.jammed_reachable 1)
  obtain ⟨dropped, _, _, _, hrecords, hroom, _⟩ := queued_waits_last hc hq
  obtain ⟨⟨others, hsplit, hpending⟩, hdropped⟩ := hroom (by decide +kernel)
  obtain rfl : dropped = some .leak := (hdropped .leak).mpr ⟨by decide +kernel, by rw [hp]; rfl⟩
  have hothers : others = [] := by
    rw [hp] at hsplit
    exact (List.cons.inj hsplit).2.symm
  subst hothers
  refine ⟨hp, hq, hpending, ?_⟩
  rw [if_pos (by decide +kernel)] at hrecords
  exact hrecords

/-- Without room the leak is reported as queued. It does not wait, and it is on record as dropped and
as queued. -/
theorem queued_without_waiting :
    let c := Scene.jammed 0
    c.session.Reachable ∧ (c.handleFault .leak).1 = .faultQueued ∧
      (c.handleFault .leak).2.session.faults.pending = [] ∧
      (c.handleFault .leak).2.session.core.trail.records = c.session.core.trail.records ++
        [.fault .leak .dropped none, .fault .leak .queued none] :=
  ⟨Scene.jammed_reachable 0, by decide +kernel, by decide +kernel, by decide +kernel⟩

end Conductor
