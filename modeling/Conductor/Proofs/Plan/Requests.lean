import Conductor.Proofs.Plan.Progress

/-!
Requests, which are all that a session and its builders can do to a plan. A plan sends signals
when it grants a request and at no other time, and no request touches what it is subscribed to.
-/

namespace Conductor

namespace Plan

/-- What can be asked of a plan; the questions that change nothing are left out. -/
inductive Request where
  | instantiate (d : Description)
  | start (task : Handle)
  | stop (task : TaskId)
  | attach (parent : TaskId) (child : Handle) (role : String)
  | detach (parent : TaskId) (child : Handle) (role : String)
  | setArgument (task : TaskId) (name : String) (value : Value)
  | emit (task : TaskId) (event : EventName) (payload : Option Value)

namespace Request

/-- The plan after a request, unless it refuses. -/
def grant (p : Plan) : Request → Except ProviderError Plan
  | .instantiate d => (p.instantiate d).map Prod.snd
  | .start task => p.start task
  | .stop task => p.stop task
  | .attach parent child role => p.attach parent child role
  | .detach parent child role => p.detach parent child role
  | .setArgument task name value => p.setArgument task name value
  | .emit task event payload => p.emit task event payload

/-- What the plan sends when it grants a request: the start of a task that was pending, or the
event that it is told to emit. -/
def signals (p : Plan) : Request → List Signal
  | .start task => if (p.state task.id).isPending then [.event ⟨task.id, .start, none⟩] else []
  | .emit task event payload => [.event ⟨task, event, payload⟩]
  | _ => []

end Request

/-- From one plan to another by requests, and what was sent meanwhile, in order. -/
inductive Sends (p : Plan) : List Signal → Plan → Prop where
  | refl : Sends p [] p
  | tail {sent : List Signal} {q r : Plan} (request : Request) :
    Sends p sent q → request.grant q = .ok r → Sends p (sent ++ request.signals q) r

/-- One plan comes from another by requests. -/
def Asked (p q : Plan) : Prop := ∃ sent, p.Sends sent q

variable {p q r : Plan} {sent sent' : List Signal}

theorem instantiate_quiet {d : Description} {h : Handle} (hi : p.instantiate d = .ok (h, q)) :
    q.outbox = p.outbox ∧ q.subscriptions = p.subscriptions := by
  obtain ⟨-, rfl⟩ := instantiate_eq hi
  exact ⟨rfl, rfl⟩

theorem start_reports {task : Handle} (hs : p.start task = .ok q) :
    q.outbox = p.outbox ++ Request.signals p (.start task) ∧
      q.subscriptions = p.subscriptions := by
  obtain ⟨t, ht, hpending, rfl⟩ | ⟨hunder, rfl⟩ := start_eq hs
  · have hstate : p.state task.id = .pending := by simp [state, ht, hpending]
    rw [Request.signals, hstate]
    exact ⟨rfl, rfl⟩
  · simp [Request.signals, hunder]

theorem stop_quiet {task : TaskId} (hs : p.stop task = .ok q) :
    q.outbox = p.outbox ∧ q.subscriptions = p.subscriptions := by
  obtain ⟨t, -, rfl⟩ := stop_eq hs
  exact ⟨rfl, rfl⟩

theorem attach_quiet {parent : TaskId} {child : Handle} {role : String}
    (ha : p.attach parent child role = .ok q) :
    q.outbox = p.outbox ∧ q.subscriptions = p.subscriptions := by
  obtain ⟨-, -, rfl⟩ := attach_eq ha
  exact ⟨rfl, rfl⟩

theorem detach_quiet {parent : TaskId} {child : Handle} {role : String}
    (hd : p.detach parent child role = .ok q) :
    q.outbox = p.outbox ∧ q.subscriptions = p.subscriptions := by
  obtain ⟨children, he⟩ := p.leaving_eq parent
    ((p.childrenOf parent).eraseP fun a => a.isOf child.id role)
  rw [detach_eq hd, he]
  exact ⟨rfl, rfl⟩

theorem setArgument_quiet {task : TaskId} {name : String} {value : Value}
    (hs : p.setArgument task name value = .ok q) :
    q.outbox = p.outbox ∧ q.subscriptions = p.subscriptions := by
  obtain rfl := setArgument_eq hs
  exact ⟨rfl, rfl⟩

theorem emit_reports {task : TaskId} {event : EventName} {payload : Option Value}
    (he : p.emit task event payload = .ok q) :
    q.outbox = p.outbox ++ [.event ⟨task, event, payload⟩] ∧
      q.subscriptions = p.subscriptions := by
  obtain rfl := emit_eq he
  exact ⟨rfl, rfl⟩

/-- Reports are added behind those that wait, and subscriptions stay. -/
theorem Request.grant_ok {request : Request} (h : request.grant p = .ok q) :
    q.outbox = p.outbox ++ request.signals p ∧ q.subscriptions = p.subscriptions := by
  have quiet (hq : q.outbox = p.outbox ∧ q.subscriptions = p.subscriptions) :
      q.outbox = p.outbox ++ [] ∧ q.subscriptions = p.subscriptions := by
    rw [List.append_nil]
    exact hq
  cases request with
  | instantiate d =>
    cases hi : p.instantiate d with
    | error e => simp [grant, hi, Except.map] at h
    | ok made =>
      obtain rfl : made.2 = q := by simpa [grant, hi, Except.map] using h
      exact quiet (instantiate_quiet hi)
  | start task => exact start_reports h
  | stop task => exact quiet (stop_quiet h)
  | attach parent child role => exact quiet (attach_quiet h)
  | detach parent child role => exact quiet (detach_quiet h)
  | setArgument task name value => exact quiet (setArgument_quiet h)
  | emit task event payload => exact emit_reports h

namespace Sends

/-- What was sent waits in the outbox behind what waited there before. -/
theorem outbox (h : p.Sends sent q) : q.outbox = p.outbox ++ sent := by
  induction h with
  | refl => simp
  | tail request _ hg ih => rw [(Request.grant_ok hg).1, ih, List.append_assoc]

theorem subscriptions (h : p.Sends sent q) : q.subscriptions = p.subscriptions := by
  induction h with
  | refl => rfl
  | tail request _ hg ih => exact (Request.grant_ok hg).2.trans ih

theorem trans (h : p.Sends sent q) (h' : q.Sends sent' r) : p.Sends (sent ++ sent') r := by
  induction h' with
  | refl => simpa using h
  | tail request _ hg ih =>
    rw [← List.append_assoc]
    exact .tail request ih hg

end Sends

namespace Asked

theorem refl (p : Plan) : Asked p p := ⟨[], .refl⟩

theorem trans (h : Asked p q) (h' : Asked q r) : Asked p r := by
  obtain ⟨sent, h⟩ := h
  obtain ⟨sent', h'⟩ := h'
  exact ⟨sent ++ sent', h.trans h'⟩

theorem of_grant (request : Request) (h : request.grant p = .ok q) : Asked p q :=
  ⟨_, .tail request .refl h⟩

theorem instantiate {d : Description} {h : Handle} (hi : p.instantiate d = .ok (h, q)) :
    Asked p q := by
  refine of_grant (.instantiate d) ?_
  simp only [Request.grant, hi]
  rfl

/-- A request that the plan may refuse, where a refusal is of no consequence. -/
theorem granted (request : Request) : Asked p ((request.grant p).toOption.getD p) := by
  cases h : request.grant p with
  | error e => exact refl p
  | ok q => exact of_grant request h

theorem subscriptions (h : Asked p q) : q.subscriptions = p.subscriptions := by
  obtain ⟨sent, h⟩ := h
  exact h.subscriptions

end Asked

theorem Grown.asked (h : Grown p q) : Asked p q := by
  induction h with
  | refl => exact .refl p
  | instantiate _ hi ih => exact ih.trans (.instantiate hi)
  | start _ hs ih => exact ih.trans (.of_grant (.start _) hs)

end Plan

/-- A builder that does no more to the plan than to ask. -/
def Builder.Civil (b : Builder) : Prop := ∀ arguments p, Plan.Asked p (b arguments p).2

def Catalog.Civil (c : Catalog) : Prop := ∀ name b, c.builders.get? name = some b → b.Civil

theorem Builder.Modest.civil {b : Builder} (h : b.Modest) : b.Civil :=
  fun arguments p => (h arguments p).asked

theorem Catalog.Modest.civil {c : Catalog} (h : c.Modest) : c.Civil :=
  fun name b hb => (h name b hb).civil

end Conductor
