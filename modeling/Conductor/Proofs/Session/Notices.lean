import Conductor.Proofs.Session.Calls

/-!
What the owner of a session is told. A session is silent until it ends, and then gives the one
notice that its end calls for; that of a fault without a table left comes before it.
-/

namespace Conductor

/-- The notice that an end calls for. Whoever stops a session is told nothing. -/
def Status.notice? : Status → Option Notice
  | .succeeded completion => some (.success completion)
  | .recovered completion => some (.recovery completion)
  | .failed error => some (.failure error)
  | .created | .running | .stopped => none

/-- Whether a notice is about the end of a session. -/
def Notice.isEnd : Notice → Bool
  | .success _ | .recovery _ | .failure _ => true
  | .escalated _ => false

/-- The owner of a session was told what its status calls for. -/
structure Status.Reported (status : Status) (notices : List Notice) : Prop where
  ends : notices.filter Notice.isEnd = status.notice?.toList
  nominal : ∀ completion, .success completion ∈ notices → completion.kind = .nominal
  afterFailure : ∀ completion, .recovery completion ∈ notices →
    completion.kind = .failureRecovered
  exhausted : status = .failed .escalationExhausted →
    ∃ f, notices = [.escalated f, .failure .escalationExhausted]
  escalated : ∀ f, .escalated f ∈ notices → status = .failed .escalationExhausted

theorem Status.notice?_of_not_terminal {status : Status} (h : ¬ status.isTerminal = true) :
    status.notice? = none := by
  cases status <;> simp_all [notice?, isTerminal]

namespace Status.Reported

variable {status : Status} {notices : List Notice}

theorem silent (h : status.Reported notices) (hs : status.notice? = none) : notices = [] := by
  have hends := h.ends
  rw [hs, Option.toList_none, List.filter_eq_nil_iff] at hends
  refine List.eq_nil_iff_forall_not_mem.mpr fun n hn => ?_
  cases n with
  | escalated f =>
    rw [h.escalated f hn] at hs
    cases hs
  | success completion => exact hends _ hn rfl
  | recovery completion => exact hends _ hn rfl
  | failure error => exact hends _ hn rfl

theorem nothing (hs : status.notice? = none) : Reported status [] where
  ends := by rw [hs]; rfl
  nominal _ h := nomatch h
  afterFailure _ h := nomatch h
  exhausted h := by
    rw [h] at hs
    cases hs
  escalated _ h := nomatch h

theorem success {completion : Completion} (hk : completion.kind = .nominal) :
    Reported (succeeded completion) [.success completion] where
  ends := rfl
  nominal other h := by simp_all
  afterFailure _ h := by simp at h
  exhausted h := nomatch h
  escalated _ h := by simp at h

theorem recovery {completion : Completion} (hk : completion.kind = .failureRecovered) :
    Reported (recovered completion) [.recovery completion] where
  ends := rfl
  nominal _ h := by simp at h
  afterFailure other h := by simp_all
  exhausted h := nomatch h
  escalated _ h := by simp at h

theorem failure {error : Error} (he : error.isPlain = true) :
    Reported (failed error) [.failure error] where
  ends := rfl
  nominal _ h := by simp at h
  afterFailure _ h := by simp at h
  exhausted h := by
    cases h
    cases he
  escalated _ h := by simp at h

theorem exhaustion (f : Fault) :
    Reported (failed .escalationExhausted)
      [.escalated f, .failure .escalationExhausted] where
  ends := rfl
  nominal _ h := by simp at h
  afterFailure _ h := by simp at h
  exhausted _ := ⟨f, rfl⟩
  escalated _ _ := rfl

end Status.Reported

def Session.Reported (s : Session) : Prop := s.status.Reported s.notices

namespace Scene

variable {c : Scene}

@[simp] theorem withEngine_notices (c : Scene) (e : Engine) (s : Stage) :
    (c.withEngine e s).session.notices = c.session.notices :=
  rfl

theorem abandonHandler_notices (c : Scene) :
    c.abandonHandler.2.session.notices = c.session.notices := by
  unfold abandonHandler
  split <;> rfl

theorem retireEverything_notices (c : Scene) :
    c.retireEverything.session.notices = c.session.notices := by
  rw [retireEverything_eq, withEngine_notices]
  simp only [cleared, withPending, map, abandonHandler_notices]

theorem succeed_reported (h : c.session.notices = []) (completion : Completion) :
    (c.succeed completion).2.session.Reported := by
  have hn := (retireEverything_notices c).trans h
  unfold succeed
  extract_lets c₁
  have hn₁ : c₁.session.notices = [] := hn
  split
  · rename_i hk
    simp only [Session.Reported, map, Session.notify, hn₁, List.nil_append]
    exact .success hk
  · rename_i hk
    simp only [Session.Reported, map, Session.notify, hn₁, List.nil_append]
    exact .recovery hk

theorem fail_reported (h : c.session.notices = []) {error : Error} (he : error.isPlain = true) :
    (c.fail error).2.session.Reported := by
  have hn := (retireEverything_notices c).trans h
  simp only [fail, Session.Reported, map, Session.notify, hn, List.nil_append]
  exact .failure he

theorem exhaust_reported (h : c.session.notices = []) (f : Fault) :
    (c.exhaust f).2.session.Reported := by
  have hn : (c.giveUp f).retireEverything.session.notices = [.escalated f] := by
    rw [retireEverything_notices]
    simp only [giveUp, map, Session.notify, Session.recordTrail, h, List.nil_append]
  rw [exhaust_eq]
  simp only [fail, Session.Reported, map, Session.notify, hn]
  exact .exhaustion f

theorem halt_reported (h : c.session.notices = []) (reason : String) :
    (c.halt reason).2.session.Reported := by
  have hn := (retireEverything_notices c).trans h
  simp only [halt, Session.Reported, map, Session.recordTrail, hn]
  exact .nothing rfl

theorem turn_reported {m m' : Moment} (ht : Turn m m') (h : m.scene.session.Reported) :
    m'.scene.session.Reported := by
  -- A session that takes a turn has not ended, so nothing was told yet.
  have hsilent : m.scene.session.notices = [] :=
    h.silent (Status.notice?_of_not_terminal ht.not_terminal)
  cases ht with
  | begin | cancel =>
    rw [Session.Reported]
    exact hsilent ▸ .nothing rfl
  | hear | count | model | handler | unhandled | draw | trigger | install => exact h
  | @queue c f =>
    obtain ⟨trail, he⟩ := c.enqueue_eq f
    show (c.enqueue f).session.Reported
    rw [he]
    exact h
  | @displace c f active =>
    have hreported : c.abandonHandler.2.session.Reported := by
      rw [Session.Reported, abandonHandler_status, abandonHandler_notices]
      exact h
    exact hreported
  | resolve | escalate => exact h
  | exhaust => exact exhaust_reported hsilent _
  | succeed completion => exact succeed_reported hsilent completion
  | fail error hr he => exact fail_reported hsilent he
  | halt reason => exact halt_reported hsilent reason

theorem after_reported (hs : c.Sound) (h : c.session.Reported) (calls : List Call) :
    (c.after calls).session.Reported := by
  refine after_preserves (P := fun c => c.session.Reported) (fun _ _ ht _ => turn_reported ht) hs
    (fun d command _ hd => ?_) h
  rw [drive_session]
  exact hd

end Scene

theorem Session.Unstarted.silent {root : Handle} {s : Session} (h : s.Unstarted root) :
    s.notices = [] := by
  induction h with
  | new id model => rfl
  | withConfig config _ ih | withCatalog catalog _ ih | withTable t _ ih => exact ih

/-- Whatever is done with a session, its owner was told of its end once and in the words of its
status, and of nothing but a fault for which no table was left. -/
theorem reported_after {root : Handle} {s : Session} (hs : s.Unstarted root) (p : Plan)
    (calls : List Call) : (Scene.after ⟨s, p⟩ calls).session.Reported := by
  have hfresh : s.Reported := by
    rw [Session.Reported, hs.fresh.status, hs.silent]
    exact .nothing rfl
  exact Scene.after_reported (hs.fresh.sound p) hfresh calls

theorem reported_when_exhausted :
    let hasty : ResponseTable := .ofResponses "haste"
      [⟨"rush", .any, .script ⟨"rusher", [], []⟩, 0, .direct, .goOn, false⟩]
    let session := (Scene.after ⟨Session.sample.withTable hasty, .sample⟩
      [.start, .deliver (.fault .sample), .stop]).session
    session.notices = [.escalated .sample, .failure .escalationExhausted] ∧
      session.Reported := by
  intro hasty session
  have hs : (Session.sample.withTable hasty).Unstarted .sample :=
    .withTable hasty Session.sample_unstarted
  exact ⟨by decide, reported_after hs .sample _⟩

end Conductor
