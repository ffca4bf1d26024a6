import Conductor.Proofs.Session.Calls
import Conductor.Proofs.Stage.Kept

/-!
No fault is lost and none is accounted for twice. While a session runs, the faults that it was told
of are those on record as settled, the one that the active handler is about and those that wait.
-/

namespace Conductor

namespace Disposition

/-- Nothing more becomes of a fault that is settled. -/
def isSettled : Disposition → Bool
  | unhandled | dropped | resolved => true
  | _ => false

end Disposition

namespace Trail

/-- The faults on record as settled, the newest first. -/
def settled (t : Trail) : List Fault :=
  (t.fates.filter fun p => p.2.isSettled).map Prod.fst

theorem SameFates.settled {t u : Trail} (h : SameFates t u) : u.settled = t.settled := by
  rw [Trail.settled, h.2, Trail.settled]

theorem settled_record (t : Trail) (f : Fault) (d : Disposition) (response : Option String)
    (ht : t.enabled = true) :
    (t.record (.fault f d response)).settled =
      if d.isSettled then f :: t.settled else t.settled := by
  rw [settled, fates_record_fault t f d response ht, List.filter_cons]
  split <;> rfl

/-- Whether a fault that passes a test is on record with the given fate. -/
def Record.hasFate (p : Fault → Bool) (d : Disposition) : Record → Bool
  | .fault f d' _ => p f && d' == d
  | _ => false

/-- How many faults that pass a test are on record with the given fate. -/
def fateCount (t : Trail) (p : Fault → Bool) (d : Disposition) : Nat :=
  t.records.countP (Record.hasFate p d)

theorem fateCount_eq (t : Trail) (p : Fault → Bool) (d : Disposition) :
    t.fateCount p d = t.fates.countP fun q => p q.1 && q.2 == d := by
  unfold fateCount fates Trail.records
  rw [List.countP_reverse, List.countP_filterMap]
  congr 1
  funext r
  cases r <;> rfl

theorem countP_settled (t : Trail) (p : Fault → Bool) :
    t.settled.countP p =
      t.fateCount p .unhandled + t.fateCount p .dropped + t.fateCount p .resolved := by
  simp only [fateCount_eq, settled, List.countP_map, List.countP_filter]
  generalize t.fates = fates
  induction fates with
  | nil => rfl
  | cons q rest ih =>
    obtain ⟨f, d⟩ := q
    simp only [List.countP_cons, ih]
    cases d <;> simp [Disposition.isSettled] <;> omega

end Trail

theorem Dispatch.enqueue_pending (d : Dispatch) (f : Fault) (h : d.pending.length ≤ d.limit) :
    (d.enqueue f).2.pending.length ≤ d.limit ∧
      ((d.enqueue f).1.toList ++ (d.enqueue f).2.pending).Perm (f :: d.pending) := by
  by_cases hfull : d.pending.length ≥ d.limit
  · simp only [enqueue, if_pos hfull]
    cases hp : d.pending with
    | nil =>
      have hl : d.limit = 0 := by simpa [hp] using hfull
      simp [hl]
    | cons old rest =>
      have hlength : rest.length + 1 ≤ d.limit := by simpa [hp] using h
      have hl : d.limit > 0 := by omega
      simp only [if_pos hl]
      refine ⟨by simpa using hlength, ?_⟩
      show (old :: (rest ++ [f])).Perm (f :: old :: rest)
      exact List.perm_append_singleton f (old :: rest)
  · have hl : d.limit > 0 := by omega
    simp only [enqueue, if_neg hfull, if_pos hl]
    refine ⟨?_, List.perm_append_singleton f d.pending⟩
    rw [List.length_append, List.length_singleton]
    omega

namespace Moment

/-- The faults that a session holds. -/
def held (m : Moment) : List Fault :=
  m.hand.toList ++ (m.scene.session.faults.active.map ActiveHandler.fault).toList ++
    m.scene.session.faults.pending

/-- Every fault that the accounts know of, settled or not. -/
def account (m : Moment) : List Fault := m.held ++ m.scene.session.core.trail.settled

theorem held_of_handler {hand : Option Fault} {c : Scene} {active : ActiveHandler}
    (h : c.session.faults.active = some active) :
    held ⟨hand, c⟩ = hand.toList ++ active.fault :: c.session.faults.pending := by
  simp [held, h]

theorem held_of_no_handler {hand : Option Fault} {c : Scene}
    (h : c.session.faults.active = none) :
    held ⟨hand, c⟩ = hand.toList ++ c.session.faults.pending := by
  simp [held, h]

/-- The accounts can be kept: the trail is, and no more faults wait than may. -/
structure Kept (m : Moment) : Prop where
  enabled : m.scene.session.core.trail.enabled = true
  within : m.scene.session.faults.pending.length ≤ m.scene.session.faults.limit

theorem Kept.same {m m' : Moment} (h : m.Kept) (hhand : m'.hand = m.hand)
    (htrail : m.scene.session.core.trail.SameFates m'.scene.session.core.trail)
    (hactive : m'.scene.session.faults.active.map ActiveHandler.fault =
      m.scene.session.faults.active.map ActiveHandler.fault)
    (hpending : m'.scene.session.faults.pending = m.scene.session.faults.pending)
    (hlimit : m'.scene.session.faults.limit = m.scene.session.faults.limit) :
    m'.Kept ∧ m'.account.Perm m.account := by
  refine ⟨⟨htrail.1.trans h.enabled, ?_⟩, ?_⟩
  · rw [hpending, hlimit]
    exact h.within
  · rw [account, held, hhand, hactive, hpending, htrail.settled]
    exact .refl _

/-- One fault goes on record as settled, which a session held before. -/
theorem Kept.settle {m m' : Moment} (h : m.Kept) {f : Fault} {d : Disposition}
    {response : Option String} {t : Trail} (ht : m.scene.session.core.trail.SameFates t)
    (htrail : m'.scene.session.core.trail = t.record (.fault f d response))
    (hd : d.isSettled = true) (hheld : m.held.Perm (f :: m'.held))
    (hwithin : m'.scene.session.faults.pending.length ≤ m'.scene.session.faults.limit) :
    m'.Kept ∧ m'.account.Perm m.account := by
  refine ⟨⟨?_, hwithin⟩, ?_⟩
  · rw [htrail, Trail.record_enabled]
    exact ht.1.trans h.enabled
  · rw [account, htrail, Trail.settled_record _ _ _ _ (ht.1.trans h.enabled), if_pos hd,
      ht.settled]
    exact List.perm_middle.trans (hheld.symm.append_right m.scene.session.core.trail.settled)

/-- What is on record of a fault that is not settled does not count. -/
theorem Kept.unsettled {c : Scene} {hand : Option Fault} (h : Kept ⟨hand, c⟩) {f : Fault}
    {d : Disposition} (response : Option String) (hd : d.isSettled = false) :
    Kept ⟨hand, c.record (.fault f d response)⟩ ∧
      (account ⟨hand, c.record (.fault f d response)⟩).Perm (account ⟨hand, c⟩) := by
  have hsettled : (c.record (.fault f d response)).session.core.trail.settled =
      c.session.core.trail.settled := by
    refine (Trail.settled_record _ f d response h.enabled).trans ?_
    rw [hd]
    rfl
  refine ⟨⟨(Trail.record_enabled ..).trans h.enabled, h.within⟩, ?_⟩
  simp only [account, hsettled]
  exact .refl _

theorem settled_recordDropped {c : Scene} (ht : c.session.core.trail.enabled = true)
    (dropped : Option Fault) :
    (c.recordDropped dropped).session.core.trail.enabled = true ∧
      (c.recordDropped dropped).session.core.trail.settled =
        dropped.toList ++ c.session.core.trail.settled := by
  cases dropped with
  | none => exact ⟨ht, rfl⟩
  | some old => exact ⟨(Trail.record_enabled ..).trans ht, Trail.settled_record _ _ _ _ ht⟩

theorem Kept.queue {c : Scene} {f : Fault} (h : Kept ⟨some f, c⟩) :
    Kept ⟨none, c.enqueue f⟩ ∧ (account ⟨none, c.enqueue f⟩).Perm (account ⟨some f, c⟩) := by
  obtain ⟨hwithin, hperm⟩ := c.session.faults.enqueue_pending f h.within
  obtain ⟨pending, hq⟩ := c.session.faults.enqueue_eq f
  obtain ⟨trail, he⟩ := c.enqueue_eq f
  obtain ⟨henabled, hsettled⟩ := settled_recordDropped
    (c := c.map fun session => { session with faults := (session.faults.enqueue f).2 }) h.enabled
    (c.session.faults.enqueue f).1
  have htrail : (c.enqueue f).session.core.trail.settled =
      (c.session.faults.enqueue f).1.toList ++ c.session.core.trail.settled :=
    (Trail.settled_record _ f .queued none henabled).trans hsettled
  have hfaults : (c.enqueue f).session.faults = (c.session.faults.enqueue f).2 := by
    rw [he]
    rfl
  have hactive : (c.session.faults.enqueue f).2.active = c.session.faults.active := by rw [hq]
  refine ⟨⟨(Trail.record_enabled ..).trans henabled, ?_⟩, ?_⟩
  · show (c.enqueue f).session.faults.pending.length ≤ (c.enqueue f).session.faults.limit
    have hlimit : (c.session.faults.enqueue f).2.limit = c.session.faults.limit := by rw [hq]
    rw [hfaults, hlimit]
    exact hwithin
  · simp only [account, held, htrail, hfaults, hactive]
    rw [List.perm_iff_count] at hperm ⊢
    intro a
    have ha := hperm a
    simp only [List.count_append, List.count_cons, Option.toList_none, Option.toList_some,
      List.count_nil] at ha ⊢
    omega

theorem Kept.turn {m m' : Moment} (ht : Turn m m') (hs : m.scene.Sound) (h : m.Kept) :
    m'.scene.session.status.isTerminal = true ∨ m'.Kept ∧ m'.account.Perm m.account := by
  cases ht with
  | begin hcreated => exact .inr (h.same rfl (Trail.sameFates_record (by simp)) rfl rfl rfl)
  | cancel hcreated => exact .inl rfl
  | hear e hr => exact .inr (h.same rfl (.refl _) rfl rfl rfl)
  | count f hr => exact .inr (h.same rfl (.refl _) rfl rfl rfl)
  | model hr ha hact =>
    have hkept := Stage.Kept.moves (hact.moves hs.model).1
    exact .inr (h.same rfl hkept.fates rfl rfl rfl)
  | @handler c active e s hr ha hact =>
    have hkept := Stage.Kept.moves (hact.moves (hs.handler active ha)).1
    refine .inr (h.same rfl hkept.fates ?_ rfl rfl)
    show some active.fault = c.session.faults.active.map ActiveHandler.fault
    rw [ha]
    rfl
  | unhandled hr => exact .inr (h.settle (.refl _) rfl rfl (.refl _) h.within)
  | queue hr ha => exact .inr h.queue
  | @draw c f rest hr ha hp =>
    have hwithin := h.within
    simp only [hp, List.length_cons] at hwithin
    refine .inr ⟨⟨h.enabled, ?_⟩, ?_⟩
    · show rest.length ≤ c.session.faults.limit
      omega
    · simp [account, held, Scene.withPending, Scene.map, hp, ha]
  | @displace c f active hr ha =>
    have hkept := Stage.Kept.moves (Engine.stop_calms (hs.handler active ha) c.stage).1.moves
    have htrail : c.abandonHandler.2.session.core.trail = (active.engine.stop c.stage).2.trail := by
      simp only [Scene.abandonHandler, ha]
      rfl
    refine .inr (h.settle (f := active.fault) (d := .dropped) hkept.fates
      (congrArg (Trail.record · _) htrail) rfl ?_ ?_)
    · have hnone : (c.abandonHandler.2.record
          (.fault active.fault .dropped none)).session.faults.active = none :=
        Scene.abandonHandler_active c
      have hpending : (c.abandonHandler.2.record
          (.fault active.fault .dropped none)).session.faults.pending =
            c.session.faults.pending :=
        Scene.abandonHandler_pending c
      rw [held_of_handler ha, held_of_no_handler hnone, hpending]
      exact .swap ..
    · show c.abandonHandler.2.session.faults.pending.length ≤
        c.abandonHandler.2.session.faults.limit
      rw [Scene.abandonHandler_pending, Scene.abandonHandler_limit]
      exact h.within
  | trigger response hr hd =>
    refine .inr (h.unsettled _ ?_)
    rcases hd with rfl | rfl <;> rfl
  | @install c f target hr ha =>
    refine .inr ⟨⟨h.enabled, ?_⟩, ?_⟩
    · simpa [Scene.install, Scene.map] using h.within
    · simp [account, held, Scene.install, Scene.map, Scene.fresh, ha]
  | @resolve c active completion hr ha =>
    refine .inr (h.settle (f := active.fault) (d := .resolved) (.refl _) rfl rfl ?_ ?_)
    · have hnone : (c.resolved active completion).session.faults.active = none :=
        Scene.endHandler_active ..
      have hpending : (c.resolved active completion).session.faults.pending =
          c.session.faults.pending :=
        Scene.endHandler_pending ..
      rw [held_of_handler ha, held_of_no_handler hnone, hpending]
      exact .refl _
    · show (c.endHandler active .resolved).session.faults.pending.length ≤
        (c.endHandler active .resolved).session.faults.limit
      simpa using h.within
  | @escalate c active hr ha =>
    have hended : Kept ⟨some active.fault, c.endHandler active .escalated⟩ ∧
        (account ⟨some active.fault, c.endHandler active .escalated⟩).Perm (account ⟨none, c⟩) := by
      refine ⟨⟨h.enabled, by simpa using h.within⟩, ?_⟩
      rw [account, account, held_of_handler ha, held_of_no_handler (Scene.endHandler_active ..),
        Scene.endHandler_pending]
      exact .refl _
    obtain ⟨hkept, hperm⟩ := hended.1.unsettled (f := active.fault) (d := .escalated) none rfl
    exact .inr ⟨hkept, hperm.trans hended.2⟩
  | exhaust hr => exact .inl (Scene.exhaust_terminal ..)
  | succeed completion hr => exact .inl (Scene.succeed_terminal ..)
  | fail error hr => exact .inl (Scene.fail_terminal ..)
  | halt reason hr => exact .inl (Scene.halt_terminal ..)

/-- The accounts over a chain of turns, unless the session ends meanwhile. -/
theorem Kept.turns {m m' : Moment} (ht : Turns m m') (hs : m.scene.Sound) (h : m.Kept) :
    m'.scene.session.status.isTerminal = true ∨ m'.Kept ∧ m'.account.Perm m.account := by
  have hall : m'.scene.Sound ∧
      (m'.scene.session.status.isTerminal = true ∨ m'.Kept ∧ m'.account.Perm m.account) := by
    refine ht.preserves (P := fun n => n.scene.Sound ∧ (n.scene.session.status.isTerminal = true ∨
      n.Kept ∧ n.account.Perm m.account)) ?_ ⟨hs, .inr ⟨h, .refl _⟩⟩
    rintro n n' hn ⟨hsn, hterminal | ⟨hkept, hperm⟩⟩
    · exact absurd hterminal hn.not_terminal
    · refine ⟨hsn.turn hn, (hkept.turn hn hsn).imp id ?_⟩
      exact fun ⟨hkept', hperm'⟩ => ⟨hkept', hperm'.trans hperm⟩
  exact hall.2

end Moment

/-- The fault that a session is told of. -/
def Call.fault? : Call → Option Fault
  | .deliver (.fault f) => some f
  | _ => none

namespace Scene

/-- The faults that a session is told of while it runs. -/
def received (c : Scene) : List Call → List Fault
  | [] => []
  | call :: rest =>
    (if c.session.isRunning then call.fault?.toList else []) ++ (c.call call).received rest

/-- The accounts over a call. -/
theorem call_kept {c : Scene} (hs : c.Sound) (h : Moment.Kept ⟨none, c⟩) (call : Call) :
    (c.call call).session.status.isTerminal = true ∨ Moment.Kept ⟨none, c.call call⟩ ∧
      (Moment.account ⟨none, c.call call⟩).Perm
        ((if c.session.isRunning then call.fault?.toList else []) ++ Moment.account ⟨none, c⟩) := by
  have hnone : ∀ {c'}, Turns ⟨none, c⟩ ⟨none, c'⟩ → call.fault? = none →
      c'.session.status.isTerminal = true ∨ Moment.Kept ⟨none, c'⟩ ∧
        (Moment.account ⟨none, c'⟩).Perm
          ((if c.session.isRunning then call.fault?.toList else []) ++
            Moment.account ⟨none, c⟩) := by
    intro c' ht hf
    rw [hf]
    simpa using h.turns ht hs
  cases call with
  | start => exact hnone (start_turns fun hc => (hs.rest (congrArg Status.isRunning hc)).1) rfl
  | stop => exact hnone (stop_turns c) rfl
  | drive command =>
    refine .inr ?_
    obtain ⟨plan, hp⟩ : ∃ plan, c.drive command = { c with plan } := by
      unfold Scene.drive
      split
      · exact ⟨_, rfl⟩
      · exact ⟨c.plan, rfl⟩
    have hsame : Moment.Kept ⟨none, c.drive command⟩ ∧
        (Moment.account ⟨none, c.drive command⟩).Perm (Moment.account ⟨none, c⟩) := by
      rw [hp]
      exact h.same rfl (.refl _) rfl rfl rfl
    simpa [Call.fault?, Scene.call] using hsame
  | deliver signal =>
    cases signal with
    | event e => exact hnone (handleEvent_turns c e) rfl
    | fault f =>
      by_cases hr : c.session.isRunning = true
      · have hhand : Moment.Kept ⟨some f, c⟩ := ⟨h.enabled, h.within⟩
        rw [if_pos hr]
        exact hhand.turns (handleFault_turns hr f) hs
      · have hignored : c.call (.deliver (.fault f)) = c := by
          simp [Scene.call, deliver, handleFault, hr]
        rw [hignored, if_neg hr]
        exact .inr ⟨h, .refl _⟩

theorem after_kept {c : Scene} (hs : c.Sound) (h : Moment.Kept ⟨none, c⟩) (calls : List Call)
    (hr : (c.after calls).session.isRunning = true) :
    (Moment.account ⟨none, c.after calls⟩).Perm
      (c.received calls ++ Moment.account ⟨none, c⟩) := by
  induction calls generalizing c with
  | nil => exact .refl _
  | cons call rest ih =>
    rcases call_kept hs h call with hterminal | ⟨hkept, hperm⟩
    · have hend := after_of_terminal hterminal rest
      have hr' : (c.call call).session.isRunning = true := hend ▸ hr
      exact absurd hr' (Status.not_running hterminal)
    · have hrest := ih (hs.call call) hkept hr
      refine hrest.trans ((hperm.append_left _).trans ?_)
      simp only [received]
      rw [List.perm_iff_count]
      intro a
      simp only [List.count_append]
      omega

end Scene

def Fault.isOf (f : Fault) (origin : TaskId) (category : String) : Bool :=
  f.origin == origin && f.category == category

/-- While a session with a trail runs, the faults of each kind that it was told of are as many as
those on record as unhandled, dropped or resolved, those that wait and the active handler's. -/
theorem fault_conservation {root : Handle} {s : Session} (hs : s.Unstarted root)
    (htrail : s.config.keepsTrail = true) (p : Plan) {calls : List Call}
    (hr : (Scene.after ⟨s, p⟩ calls).session.isRunning = true) (origin : TaskId)
    (category : String) :
    let session := (Scene.after ⟨s, p⟩ calls).session
    let alike := fun f : Fault => f.isOf origin category
    (Scene.received ⟨s, p⟩ calls).countP alike =
      session.core.trail.fateCount alike .unhandled + session.core.trail.fateCount alike .dropped +
        session.core.trail.fateCount alike .resolved + session.faults.pending.countP alike +
        (session.faults.active.map ActiveHandler.fault).toList.countP alike := by
  intro session alike
  have hfresh := hs.fresh
  have hkept : Moment.Kept ⟨none, ⟨s, p⟩⟩ := by
    constructor
    · rw [hfresh.trail]
      exact htrail
    · rw [hfresh.pending]
      exact Nat.zero_le _
  have hempty : Moment.account ⟨none, ⟨s, p⟩⟩ = [] := by
    simp [Moment.account, Moment.held, hfresh.active, hfresh.pending, hfresh.trail, Trail.settled,
      Trail.fates, Trail.empty]
  have hperm := Scene.after_kept (hfresh.sound p) hkept calls hr
  rw [hempty, List.append_nil] at hperm
  have hcount := hperm.countP_eq alike
  simp only [Moment.account, Moment.held, List.countP_append, Trail.countP_settled,
    Option.toList_none, List.countP_nil] at hcount
  have hsession : (Scene.after ⟨s, p⟩ calls).session = session := rfl
  rw [hsession] at hcount
  omega

theorem fault_conservation_waiting :
    let calls : List Call := [.start, .deliver (.fault .sample), .deliver (.fault .sample)]
    let session := (Scene.after ⟨Session.sample.withTable .sample, .sample⟩ calls).session
    let alike := fun f : Fault => f.isOf Handle.sample.id "jam"
    session.isRunning = true ∧ session.faults.pending = [.sample] ∧
      2 = session.core.trail.fateCount alike .unhandled +
        session.core.trail.fateCount alike .dropped + session.core.trail.fateCount alike .resolved +
        session.faults.pending.countP alike +
        (session.faults.active.map ActiveHandler.fault).toList.countP alike := by
  intro calls session alike
  have hr : session.isRunning = true := by decide
  have hcount : (Scene.received ⟨Session.sample.withTable .sample, .sample⟩ calls).countP alike =
      2 := by decide
  have h := fault_conservation (.withTable .sample Session.sample_unstarted) rfl .sample hr
    Handle.sample.id "jam"
  exact ⟨hr, by decide, hcount.symm.trans h⟩

end Conductor
