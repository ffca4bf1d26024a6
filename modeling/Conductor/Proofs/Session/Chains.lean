import Conductor.Proofs.Session.Outcomes
import Mathlib.Data.List.Perm.Subperm

/-!
Chains of handlers. In the course of a delivery handlers are started from inside each other: one
that fails at once makes way for the next one outwards, and one that finishes at once lets the
faults that waited behind it start handlers of their own. Here this recursion is laid out without
fuel, along with the chain of handlers that each fault was given. Every delivery has exactly one
such course, the chains are no more than the faults that could be handled, and each of them leads
outwards through the tables.
-/

namespace Conductor

/-- Whether an outcome is the last word on a delivery. After any other one the faults that wait
have their turn. -/
def Outcome.isFinal : Outcome → Bool
  | .handlerStarted _ => true
  | o => o.isTerminal

theorem Outcome.isFinal_of_terminal {o : Outcome} (h : o.isTerminal = true) : o.isFinal = true := by
  cases o <;> first | rfl | cases h

/-- What is reported of a handler: that it runs, or else, where the normal model went on, that the
fault is resolved. -/
def Outcome.reported (o : Outcome) (handling : Bool) (response : String) : Outcome :=
  match o with
  | .waiting | .advanced => if handling then .handlerStarted response else .faultResolved response
  | o => o

/-- What became of the last handler of a chain. -/
inductive Upshot where
  | running
  /-- In the given scene the handler had come to its end, and the normal model was to go on. -/
  | resolved (c : Scene) (active : ActiveHandler) (completion : Completion)
  | exhausted

/-- The handlers that were started for a fault, one after the failure of the other. A chain without
any is that of a handler which ran before. -/
structure Chain where
  fault : Fault
  targets : List Target
  upshot : Upshot

theorem Outcome.reported_of_final {o : Outcome} (h : o.isFinal = true) (handling : Bool)
    (response : String) : o.reported handling response = o := by
  cases o <;> first | rfl | cases h

/-- What there is to do in the course of a delivery. -/
inductive Job where
  | deliver (signal : Signal)
  | route (f : Fault)
  | activate (target : Target) (f : Fault) (d : Disposition)
  /-- The active handler has reported. -/
  | settle (active : ActiveHandler) (p : Progress)
  /-- The normal model went on with the given outcome; the faults that wait have their turn. -/
  | drain (o : Outcome)

namespace Scene

/-- From a scene a job is done by way of chains of handlers, with an outcome and a scene after
it. -/
inductive Performs : Scene → Job → List Chain → Outcome → Scene → Prop where
  | ignore {c : Scene} (signal : Signal) : c.session.isRunning = false →
    Performs c (.deliver signal) [] .ignored c
  | rootEnds {c : Scene} {e : Event} : c.session.isRunning = true →
    e.task = c.session.root.id ∧ e.name.isTerminal = true →
    Performs c (.deliver (.event e)) [] ((c.hear e).halt "root task ended").1
      ((c.hear e).halt "root task ended").2
  | model {c : Scene} {e : Event} {p : Progress} {engine : Engine} {s : Stage} :
    c.session.isRunning = true → ¬ (e.task = c.session.root.id ∧ e.name.isTerminal = true) →
    c.session.faults.active = none →
    c.session.engine.onEvent e (c.hear e).stage = (p, engine, s) →
    Performs c (.deliver (.event e)) [] (((c.hear e).withEngine engine s).settleModel p).1
      (((c.hear e).withEngine engine s).settleModel p).2
  | handler {c c' : Scene} {e : Event} {active : ActiveHandler} {p : Progress} {engine : Engine}
    {s : Stage} {chains : List Chain} {o : Outcome} :
    c.session.isRunning = true → ¬ (e.task = c.session.root.id ∧ e.name.isTerminal = true) →
    c.session.faults.active = some active →
    active.engine.onEvent e (c.hear e).stage = (p, engine, s) →
    Performs ((c.hear e).withHandler active engine s) (.settle { active with engine } p) chains o
      c' →
    Performs c (.deliver (.event e)) chains o c'
  | fault {c c' : Scene} {f : Fault} {chains : List Chain} {o : Outcome} :
    c.session.isRunning = true → Performs c (.route f) chains o c' →
    Performs c (.deliver (.fault f)) chains o c'
  | unhandled {c : Scene} {f : Fault} :
    c.session.faults.decide f (c.session.inReach f) = .unhandled →
    Performs c (.route f) [] .faultUnhandled (c.counted.record (.fault f .unhandled none))
  | queue {c : Scene} {f : Fault} :
    c.session.faults.decide f (c.session.inReach f) = .queue →
    Performs c (.route f) [] .faultQueued (c.counted.enqueue f)
  | preempt {c c' : Scene} {f : Fault} {target : Target} {chains : List Chain} {o : Outcome} :
    c.session.faults.decide f (c.session.inReach f) = .preempt target →
    Performs c.vacated (.activate target f .preempted) chains o c' →
    Performs c (.route f) chains o c'
  | trigger {c c' : Scene} {f : Fault} {target : Target} {chains : List Chain} {o : Outcome} :
    c.session.faults.decide f (c.session.inReach f) = .activate target →
    Performs c.counted (.activate target f .triggered) chains o c' →
    Performs c (.route f) chains o c'
  | activate {c c₁ c' : Scene} {target : Target} {f : Fault} {d : Disposition} {p : Progress}
    {active : ActiveHandler} {targets : List Target} {upshot : Upshot} {chains : List Chain}
    {o : Outcome} :
    c.startHandler target f d = (p, c₁) → c₁.session.faults.active = some active →
    Performs c₁ (.settle active p) (⟨f, targets, upshot⟩ :: chains) o c' →
    Performs c (.activate target f d) (⟨f, target :: targets, upshot⟩ :: chains)
      (o.reported c'.session.isSuspended target.response.name) c'
  | wait {c : Scene} {active : ActiveHandler} :
    Performs c (.settle active .waiting) [⟨active.fault, [], .running⟩] .waiting c
  | advance {c : Scene} {active : ActiveHandler} :
    Performs c (.settle active .advanced) [⟨active.fault, [], .running⟩] .advanced c
  | resolve {c c' : Scene} {active : ActiveHandler} {completion : Completion}
    {chains : List Chain} {o : Outcome} :
    Performs (c.resolve active completion).2 (.drain (c.resolve active completion).1) chains o
      c' →
    Performs c (.settle active (.finished completion))
      (⟨active.fault, [], .resolved c active completion⟩ :: chains) o c'
  | escalate {c c₁ c' : Scene} {active : ActiveHandler} {error : Error} {next : Target}
    {chains : List Chain} {o : Outcome} :
    c.escalate active = (some next, c₁) →
    Performs c₁ (.activate next active.fault .triggered) chains o c' →
    Performs c (.settle active (.failed error)) chains o c'
  | exhaust {c c₁ : Scene} {active : ActiveHandler} {error : Error} :
    c.escalate active = (none, c₁) →
    Performs c (.settle active (.failed error)) [⟨active.fault, [], .exhausted⟩]
      (c₁.exhaust active.fault).1 (c₁.exhaust active.fault).2
  | rest {c : Scene} {o : Outcome} : ¬ c.Free ∨ c.session.faults.pending = [] →
    Performs c (.drain o) [] o c
  | stop {c c' : Scene} {f : Fault} {rest : List Fault} {o o' : Outcome} {chains : List Chain} :
    c.Free → c.session.faults.pending = f :: rest →
    Performs (c.withPending rest) (.route f) chains o' c' → o'.isFinal = true →
    Performs c (.drain o) chains o' c'
  | draw {c c₁ c' : Scene} {f : Fault} {rest : List Fault} {o o₁ o' : Outcome}
    {chains chains' : List Chain} :
    c.Free → c.session.faults.pending = f :: rest →
    Performs (c.withPending rest) (.route f) chains o₁ c₁ → o₁.isFinal = false →
    Performs c₁ (.drain o) chains' o' c' →
    Performs c (.drain o) (chains ++ chains') o' c'

variable {c c₁ c₂ : Scene} {j : Job} {chains chains₁ chains₂ : List Chain} {o o₁ o₂ : Outcome}

/-- There is only one way to do a job. -/
theorem Performs.unique (h₁ : c.Performs j chains₁ o₁ c₁) (h₂ : c.Performs j chains₂ o₂ c₂) :
    chains₁ = chains₂ ∧ o₁ = o₂ ∧ c₁ = c₂ := by
  induction h₁ generalizing chains₂ o₂ c₂ with
  | ignore signal hn =>
    cases h₂ with
    | ignore => exact ⟨rfl, rfl, rfl⟩
    | rootEnds hr | model hr | handler hr | fault hr => exact nomatch hr.symm.trans hn
  | rootEnds hr he =>
    cases h₂ with
    | ignore _ hn => exact nomatch hr.symm.trans hn
    | rootEnds => exact ⟨rfl, rfl, rfl⟩
    | model _ he' | handler _ he' => exact absurd he he'
  | model hr he ha hs =>
    cases h₂ with
    | ignore _ hn => exact nomatch hr.symm.trans hn
    | rootEnds _ he' => exact absurd he' he
    | model _ _ _ hs' =>
      cases hs.symm.trans hs'
      exact ⟨rfl, rfl, rfl⟩
    | handler _ _ ha' => exact nomatch ha.symm.trans ha'
  | handler hr he ha hs _ ih =>
    cases h₂ with
    | ignore _ hn => exact nomatch hr.symm.trans hn
    | rootEnds _ he' => exact absurd he' he
    | model _ _ ha' => exact nomatch ha.symm.trans ha'
    | handler _ _ ha' hs' hp' =>
      cases ha.symm.trans ha'
      cases hs.symm.trans hs'
      exact ih hp'
  | fault hr _ ih =>
    cases h₂ with
    | ignore _ hn => exact nomatch hr.symm.trans hn
    | fault _ hp' => exact ih hp'
  | unhandled hd =>
    cases h₂ with
    | unhandled => exact ⟨rfl, rfl, rfl⟩
    | queue hd' | preempt hd' | trigger hd' => cases hd.symm.trans hd'
  | queue hd =>
    cases h₂ with
    | queue => exact ⟨rfl, rfl, rfl⟩
    | unhandled hd' | preempt hd' | trigger hd' => cases hd.symm.trans hd'
  | preempt hd _ ih =>
    cases h₂ with
    | preempt hd' hp' =>
      cases hd.symm.trans hd'
      exact ih hp'
    | unhandled hd' | queue hd' | trigger hd' => cases hd.symm.trans hd'
  | trigger hd _ ih =>
    cases h₂ with
    | trigger hd' hp' =>
      cases hd.symm.trans hd'
      exact ih hp'
    | unhandled hd' | queue hd' | preempt hd' => cases hd.symm.trans hd'
  | activate hs ha _ ih =>
    cases h₂ with
    | activate hs' ha' hp' =>
      cases hs.symm.trans hs'
      cases ha.symm.trans ha'
      obtain ⟨hchains, rfl, rfl⟩ := ih hp'
      cases hchains
      exact ⟨rfl, rfl, rfl⟩
  | wait | advance =>
    cases h₂
    exact ⟨rfl, rfl, rfl⟩
  | resolve _ ih =>
    cases h₂ with
    | resolve hp' =>
      obtain ⟨rfl, rfl, rfl⟩ := ih hp'
      exact ⟨rfl, rfl, rfl⟩
  | escalate he _ ih =>
    cases h₂ with
    | escalate he' hp' =>
      cases he.symm.trans he'
      exact ih hp'
    | exhaust he' => cases he.symm.trans he'
  | exhaust he =>
    cases h₂ with
    | escalate he' => cases he.symm.trans he'
    | exhaust he' =>
      cases he.symm.trans he'
      exact ⟨rfl, rfl, rfl⟩
  | rest hrest =>
    cases h₂ with
    | rest => exact ⟨rfl, rfl, rfl⟩
    | stop hfree hp | draw hfree hp => simp [hfree, hp] at hrest
  | stop hfree hp _ hfinal ih =>
    cases h₂ with
    | rest hrest => simp [hfree, hp] at hrest
    | stop _ hp' hroute' =>
      cases hp.symm.trans hp'
      exact ih hroute'
    | draw _ hp' hroute' hfinal' =>
      cases hp.symm.trans hp'
      obtain ⟨_, rfl, _⟩ := ih hroute'
      exact nomatch hfinal.symm.trans hfinal'
  | draw hfree hp _ hfinal _ ih ih' =>
    cases h₂ with
    | rest hrest => simp [hfree, hp] at hrest
    | stop _ hp' hroute' hfinal' =>
      cases hp.symm.trans hp'
      obtain ⟨_, rfl, _⟩ := ih hroute'
      exact nomatch hfinal.symm.trans hfinal'
    | draw _ hp' hroute' _ hdrain' =>
      cases hp.symm.trans hp'
      obtain ⟨rfl, rfl, rfl⟩ := ih hroute'
      obtain ⟨rfl, rfl, rfl⟩ := ih' hdrain'
      exact ⟨rfl, rfl, rfl⟩

end Scene

/-! ## How many chains there are -/

theorem Dispatch.length_enqueue (d : Dispatch) (f : Fault) :
    (d.enqueue f).2.pending.length ≤ d.pending.length + 1 := by
  have hroom : (if d.pending.length ≥ d.limit then (d.pending.head?, d.pending.tail)
      else (none, d.pending)).2.length ≤ d.pending.length := by
    split
    · exact List.length_tail ▸ Nat.sub_le _ _
    · exact Nat.le_refl _
  simp only [enqueue]
  split
  · rw [List.length_append]
    exact Nat.add_le_add_right hroom 1
  · exact Nat.le_trans hroom (Nat.le_succ _)

/-- How many chains a job may have that is not owed to a fault that waits. -/
def Job.cost : Job → Nat
  | .drain _ => 0
  | _ => 1

namespace Scene

/-- How many faults wait to be handled. -/
def waiting (c : Scene) : Nat :=
  if c.session.isRunning = true then c.session.faults.pending.length else 0

variable {c c' : Scene} {j : Job} {chains : List Chain} {o : Outcome}

theorem waiting_of_running (hr : c.session.isRunning = true) :
    c.waiting = c.session.faults.pending.length :=
  if_pos hr

theorem waiting_of_terminal (h : c.session.status.isTerminal = true) : c.waiting = 0 :=
  if_neg (Status.not_running h)

theorem waiting_le (c : Scene) : c.waiting ≤ c.session.faults.pending.length := by
  unfold waiting
  split
  · exact Nat.le_refl _
  · exact Nat.zero_le _

theorem waiting_congr (hs : c'.session.status = c.session.status)
    (hp : c'.session.faults.pending = c.session.faults.pending) : c'.waiting = c.waiting := by
  unfold waiting Session.isRunning
  rw [hs, hp]

theorem settleModel_waiting (c : Scene) (p : Progress) :
    (c.settleModel p).2.waiting ≤ c.waiting := by
  cases p with
  | waiting | advanced => exact Nat.le_refl _
  | finished completion =>
    have hended := waiting_of_terminal (succeed_terminal c completion)
    exact hended ▸ Nat.zero_le _
  | failed error =>
    have hended := waiting_of_terminal (fail_terminal c error)
    exact hended ▸ Nat.zero_le _

theorem resolve_waiting (c : Scene) (active : ActiveHandler) (completion : Completion) :
    (c.resolve active completion).2.waiting ≤ c.waiting := by
  have hsame : (c.resolved active completion).waiting = c.waiting :=
    waiting_congr rfl (endHandler_pending c active .resolved)
  rw [resolve_eq]
  exact hsame ▸ settleModel_waiting ..

theorem enqueue_waiting (c : Scene) (f : Fault) :
    (c.counted.enqueue f).waiting ≤ c.waiting + 1 := by
  cases hr : c.session.isRunning with
  | true =>
    have hlength := c.session.faults.length_enqueue f
    rw [← enqueue_faults, ← waiting_of_running hr] at hlength
    exact Nat.le_trans (waiting_le _) hlength
  | false =>
    have hidle : (c.counted.enqueue f).waiting = 0 := by
      have hstatus : c.session.status.isRunning = false := hr
      simp [waiting, Session.isRunning, enqueue_status, hstatus]
    exact hidle ▸ Nat.zero_le _

/-- Each chain but one uses up a fault that waited. -/
theorem Performs.length_le (h : c.Performs j chains o c') :
    chains.length + c'.waiting ≤ c.waiting + j.cost := by
  induction h with
  | ignore => simp [Job.cost]
  | @rootEnds c e =>
    have hended := waiting_of_terminal (halt_terminal (c.hear e) "root task ended")
    simp [hended]
  | @model c e p engine s =>
    have hsettled := settleModel_waiting ((c.hear e).withEngine engine s) p
    have hheard : ((c.hear e).withEngine engine s).waiting = c.waiting := rfl
    simp only [Job.cost, List.length_nil]
    omega
  | @handler c c' e active p engine s chains o _ _ _ _ _ ih =>
    have hheard : ((c.hear e).withHandler active engine s).waiting = c.waiting := rfl
    rwa [hheard] at ih
  | fault _ _ ih => exact ih
  | @unhandled c f =>
    have hcounted : (c.counted.record (.fault f .unhandled none)).waiting = c.waiting := rfl
    simp [Job.cost, hcounted]
  | @queue c f =>
    have hqueued := enqueue_waiting c f
    simp [Job.cost, hqueued]
  | @preempt c _ _ _ _ _ _ _ ih =>
    rwa [waiting_congr (vacated_status c) (vacated_pending c)] at ih
  | trigger _ _ ih => exact ih
  | activate hs ha _ ih =>
    obtain ⟨hstatus, hpending, _⟩ := startHandler_ok hs
    rw [waiting_congr hstatus hpending] at ih
    exact ih
  | wait | advance => simp [Job.cost, Nat.add_comm]
  | @resolve c c' active completion chains o _ ih =>
    have hresolved := resolve_waiting c active completion
    simp only [Job.cost, List.length_cons] at ih ⊢
    omega
  | escalate he _ ih =>
    obtain ⟨hstatus, _, hpending⟩ := escalate_ok he
    rwa [waiting_congr hstatus hpending] at ih
  | @exhaust _ c₁ active =>
    have hended := waiting_of_terminal (exhaust_terminal c₁ active.fault)
    simp [Job.cost, hended]
  | rest => simp [Job.cost]
  | @stop c c' f rest o o' chains hfree hp _ _ ih =>
    have hwaiting := waiting_of_running hfree.1
    have hdrawn : (c.withPending rest).waiting = rest.length := waiting_of_running hfree.1
    rw [hp, List.length_cons] at hwaiting
    simp only [Job.cost] at ih ⊢
    omega
  | @draw c c₁ c' f rest o o₁ o' chains chains' hfree hp _ _ _ ih ih' =>
    have hwaiting := waiting_of_running hfree.1
    have hdrawn : (c.withPending rest).waiting = rest.length := waiting_of_running hfree.1
    rw [hp, List.length_cons] at hwaiting
    simp only [Job.cost, List.length_append] at ih ih' ⊢
    omega

/-! ## Where chains lead -/

theorem settleModel_responses (c : Scene) (p : Progress) :
    (c.settleModel p).2.session.faults.responses = c.session.faults.responses := by
  obtain he | ⟨g, hg, he⟩ := settleModel_eq c p
  · rw [he]
  · exact closing_responses hg he

theorem resolve_responses (c : Scene) (active : ActiveHandler) (completion : Completion) :
    (c.resolve active completion).2.session.faults.responses = c.session.faults.responses := by
  rw [resolve_eq, settleModel_responses]
  exact endHandler_responses c active .resolved

theorem Performs.responses (h : c.Performs j chains o c') :
    c'.session.faults.responses = c.session.faults.responses := by
  induction h with
  | ignore | unhandled | wait | advance | rest => rfl
  | @rootEnds c e =>
    obtain ⟨g, hg, he⟩ := halt_eq (c.hear e) "root task ended"
    exact closing_responses (c := c.hear e) hg he
  | model => exact settleModel_responses ..
  | handler _ _ _ _ _ ih | fault _ _ ih | trigger _ _ ih | stop _ _ _ _ ih => exact ih
  | @queue c f =>
    obtain ⟨pending, hp⟩ := c.session.faults.enqueue_eq f
    rw [enqueue_faults, hp]
    rfl
  | @preempt c _ _ _ _ _ _ _ ih => exact ih.trans (vacated_responses c)
  | activate hs ha _ ih => exact ih.trans (startHandler_target hs ha).2.2.2
  | resolve _ ih => exact ih.trans (resolve_responses ..)
  | escalate he _ ih => exact ih.trans (escalate_some he).1
  | @exhaust c c₁ active error he =>
    obtain rfl : (c.escalate active).2 = c₁ := congrArg Prod.snd he
    obtain ⟨g, hg, hend⟩ := fail_eq ((c.escalate active).2.giveUp active.fault)
      .escalationExhausted
    exact (closing_responses hg hend).trans (endHandler_responses c active .escalated)
  | draw _ _ _ _ _ ih ih' => exact ih'.trans ih

theorem Performs.tables (h : c.Performs j chains o c') :
    c'.session.faults.tables.length = c.session.faults.tables.length :=
  Dispatch.length_congr h.responses

end Scene

theorem Dispatch.lt_of_response? {d : Dispatch} {table entry : Nat} {r : Response}
    (h : d.response? table entry = some r) : table < d.tables.length := by
  obtain ⟨t, ht, _⟩ := Option.bind_eq_some_iff.mp h
  exact (List.getElem?_eq_some_iff.mp ht).1

/-- The handlers of a chain come from tables further and further out, of a given number of
tables. -/
structure Chain.Outward (tables : Nat) (chain : Chain) : Prop where
  ascending : (chain.targets.map Target.table).Pairwise (· < ·)
  within : ∀ target ∈ chain.targets, target.table < tables

theorem Chain.Outward.length_le {tables : Nat} {chain : Chain} (h : chain.Outward tables) :
    chain.targets.length ≤ tables := by
  have hnodup : (chain.targets.map Target.table).Nodup := h.ascending.imp Nat.ne_of_lt
  have hrange : chain.targets.map Target.table ⊆ List.range tables := by
    intro table htable
    obtain ⟨target, htarget, rfl⟩ := List.mem_map.mp htable
    exact List.mem_range.mpr (h.within target htarget)
  have hlength := (List.Nodup.subperm hnodup hrange).length_le
  rwa [List.length_map, List.length_range] at hlength

/-- Handlers that were started one chain after the other are no more than the chains times the
tables. -/
theorem Chain.length_targets_le {tables : Nat} {chains : List Chain}
    (h : ∀ chain ∈ chains, chain.Outward tables) :
    (chains.flatMap Chain.targets).length ≤ chains.length * tables := by
  induction chains with
  | nil => exact Nat.zero_le _
  | cons chain rest ih =>
    have hchain := (h chain List.mem_cons_self).length_le
    have hrest := ih fun chain hmem => h chain (List.mem_cons_of_mem _ hmem)
    rw [List.flatMap_cons, List.length_append, List.length_cons, Nat.succ_mul]
    omega

/-- A handler that is to be started is of one of the given number of tables. -/
def Job.Placed (tables : Nat) : Job → Prop
  | .activate target _ _ => target.table < tables
  | _ => True

/-- The tables that the first chain of a job may draw on. -/
def Job.Admits : Job → Nat → Prop
  | .settle active _, table => active.table < table
  | .activate target _ _, table => target.table ≤ table
  | _, _ => True

namespace Scene

variable {c c' : Scene} {j : Job} {chains : List Chain} {o : Outcome}

/-- Every chain leads outwards. -/
theorem Performs.outward (h : c.Performs j chains o c')
    (hj : j.Placed c.session.faults.tables.length) :
    (∀ chain ∈ chains, chain.Outward c.session.faults.tables.length) ∧
      ∀ chain ∈ chains.head?, ∀ target ∈ chain.targets, j.Admits target.table := by
  induction h with
  | ignore | rootEnds | model | unhandled | queue | rest => simp
  | handler _ _ _ _ _ ih => exact ⟨(ih trivial).1, fun _ _ _ _ => trivial⟩
  | fault _ _ ih => exact ⟨(ih trivial).1, fun _ _ _ _ => trivial⟩
  | @preempt c _ f target _ _ hd _ ih =>
    have hvacated := Dispatch.length_congr (vacated_responses c)
    have hlt := Dispatch.lt_of_response? (decide_found (.inr hd))
    rw [← hvacated] at hlt ⊢
    exact ⟨(ih hlt).1, fun _ _ _ _ => trivial⟩
  | @trigger c _ f target _ _ hd _ ih =>
    have hlt := Dispatch.lt_of_response? (decide_found (.inl hd))
    exact ⟨(ih hlt).1, fun _ _ _ _ => trivial⟩
  | @activate c c₁ _ target f d _ active targets upshot chains _ hs ha _ ih =>
    obtain ⟨htable, _, _, hresponses⟩ := startHandler_target hs ha
    have hlt : target.table < c.session.faults.tables.length := hj
    obtain ⟨hchains, hhead⟩ := ih trivial
    rw [Dispatch.length_congr hresponses] at hchains
    obtain ⟨hout, hothers⟩ := List.forall_mem_cons.mp hchains
    have hlater : ∀ next ∈ targets, target.table < next.table := by
      intro next hnext
      rw [← htable]
      exact hhead _ rfl next hnext
    refine ⟨List.forall_mem_cons.mpr ⟨⟨?_, ?_⟩, hothers⟩, ?_⟩
    · refine List.pairwise_cons.mpr ⟨fun table htable => ?_, hout.ascending⟩
      obtain ⟨next, hnext, rfl⟩ := List.mem_map.mp htable
      exact hlater next hnext
    · exact List.forall_mem_cons.mpr ⟨hlt, hout.within⟩
    · rintro _ ⟨⟩ next hnext
      rcases List.mem_cons.mp hnext with rfl | hnext
      · exact Nat.le_refl _
      · exact Nat.le_of_lt (hlater next hnext)
  | wait | advance | exhaust =>
    refine ⟨List.forall_mem_singleton.mpr ⟨.nil, List.forall_mem_nil _⟩, ?_⟩
    rintro _ ⟨⟩ target htarget
    cases htarget
  | @resolve c _ active completion _ _ _ ih =>
    obtain ⟨hchains, _⟩ := ih trivial
    rw [Dispatch.length_congr (resolve_responses ..)] at hchains
    refine ⟨List.forall_mem_cons.mpr ⟨⟨.nil, List.forall_mem_nil _⟩, hchains⟩, ?_⟩
    rintro _ ⟨⟩ target htarget
    cases htarget
  | @escalate c c₁ _ active _ next _ _ he _ ih =>
    obtain ⟨hresponses, hnearest⟩ := escalate_some he
    obtain ⟨hchains, hhead⟩ := ih hnearest.lt
    rw [Dispatch.length_congr hresponses] at hchains
    refine ⟨hchains, fun chain hchain target htarget => ?_⟩
    have hfurther : next.table ≤ target.table := hhead chain hchain target htarget
    exact Nat.lt_of_lt_of_le hnearest.outwards hfurther
  | stop _ _ _ _ ih => exact ⟨(ih trivial).1, fun _ _ _ _ => trivial⟩
  | draw _ _ hroute _ _ ih ih' =>
    have hothers := (ih' trivial).1
    rw [hroute.tables] at hothers
    exact ⟨List.forall_mem_append.mpr ⟨(ih trivial).1, hothers⟩, fun _ _ _ _ => trivial⟩

end Scene

end Conductor
