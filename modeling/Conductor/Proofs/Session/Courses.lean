import Conductor.Proofs.Session.Chains

/-!
Courses of deliveries. Whatever the scene, a delivery has a course: the handlers that fail at once
lead outwards to the last table at most, and each time a handler finishes at once there is one
fault less that waits. So every delivery comes to its end, with a bounded number of handlers.
-/

namespace Conductor

namespace Scene

variable {c c' : Scene} {o : Outcome}

theorem suspended_of_active {active : ActiveHandler}
    (ha : c.session.faults.active = some active) : c.session.isSuspended = true := by
  simp [Session.isSuspended, Dispatch.isHandling, ha]

theorem Free.not_suspended (h : c.Free) : c.session.isSuspended = false := by
  simp [Session.isSuspended, Dispatch.isHandling, h.2]

theorem free_iff :
    c.Free ↔ (c.session.isRunning && !c.session.isSuspended) = true := by
  simp [Free, Session.isSuspended, Dispatch.isHandling]

/-- The faults that waited are all handled, or others have to wait on. -/
theorem drain_rests {faults : List Fault} (h : ¬ c.Free ∨ faults = []) (o : Outcome) :
    drain faults o c = (o, c) := by
  cases faults with
  | nil => rfl
  | cons f rest =>
    have hbusy : ¬ (c.session.isRunning && !c.session.isSuspended) = true := by
      rw [← free_iff]
      exact h.resolve_right (List.cons_ne_nil f rest)
    rw [drain, if_neg hbusy]

theorem Acted.waiting_or_advanced (h : c.Acted o) (hc : c.Free) : o = .waiting ∨ o = .advanced := by
  cases h with
  | waiting => exact .inl rfl
  | advanced => exact .inr rfl
  | ended h => exact absurd hc.1 (Status.not_running h.terminal.2)

/-- A fault that waits is routed before the others. -/
theorem drain_free (hc : c.Free) (f : Fault) (rest : List Fault) (o : Outcome) :
    drain (f :: rest) o c = match (c.withPending rest).route f with
      | (.handled (.started response), c') => (.handlerStarted response, c')
      | (.handled (.lost o'), c') => (o', c')
      | (.handled (.resolved _ model), c') =>
        if model.isTerminal = true then (model, c') else drain rest o c'
      | (_, c') => drain rest o c' := by
  rw [drain, if_pos (free_iff.mp hc)]
  rfl

/-- What is drained either ends in an outcome of its own, or leaves the outcome to the model. -/
theorem drain_passes (faults : List Fault)
    (hp : c.session.isRunning = true → c.session.faults.pending = faults) :
    ∃ c', (∃ o', o'.isFinal = true ∧ ∀ o, drain faults o c = (o', c')) ∨
      (¬ c'.Free ∨ c'.session.faults.pending = []) ∧ ∀ o, drain faults o c = (o, c') := by
  induction faults generalizing c with
  | nil =>
    refine ⟨c, .inr ⟨?_, fun o => rfl⟩⟩
    by_cases hc : c.Free
    · exact .inr (hp hc.1)
    · exact .inl hc
  | cons f rest ih =>
    by_cases hc : c.Free
    · simp only [drain_free hc]
      cases hroute : (c.withPending rest).route f with
      | mk routing c₁ =>
        have hc₀ : (c.withPending rest).Free := hc
        have hrest : c₁.session.isRunning = true → c₁.session.faults.pending = rest := by
          have hpending := route_pending (f := f) hc₀.2
          rwa [hroute] at hpending
        cases routing with
        | unhandled | queued => exact ih hrest
        | handled handling =>
          have hhandled := route_handled hc₀.1 hroute
          cases hhandled with
          | started => exact ⟨c₁, .inl ⟨_, rfl, fun o => rfl⟩⟩
          | lost hended =>
            exact ⟨c₁, .inl ⟨_, Outcome.isFinal_of_terminal hended.terminal.1, fun o => rfl⟩⟩
          | resolved hmodel =>
            simp only
            split
            · rename_i hterminal
              exact ⟨c₁, .inl ⟨_, Outcome.isFinal_of_terminal hterminal, fun o => rfl⟩⟩
            · exact ih hrest
    · exact ⟨c, .inr ⟨.inl hc, drain_rests (.inl hc)⟩⟩

theorem conclude_reported (c : Scene) (response : String) (model : Outcome) :
    c.conclude (.resolved response model) =
      ((drain c.session.faults.pending model c).1.reported false response,
        (drain c.session.faults.pending model c).2) := by
  simp only [conclude]
  cases drain c.session.faults.pending model c with
  | mk o c' => cases o <;> rfl

/-- The outcome of a delivered fault decides whether those behind it have their turn at once. -/
theorem drain_cons (hc : c.Free) (f : Fault) (rest : List Fault) (o : Outcome) {o₁ : Outcome}
    {c₁ : Scene} (h : (c.withPending rest).handleFault f = (o₁, c₁)) :
    (o₁.isFinal = true ∧ drain (f :: rest) o c = (o₁, c₁)) ∨
      (o₁.isFinal = false ∧
        (c₁.session.isRunning = true → c₁.session.faults.pending = rest) ∧
          drain (f :: rest) o c = drain rest o c₁) ∨
      o₁.isFinal = false ∧ (¬ c₁.Free ∨ c₁.session.faults.pending = []) ∧
        drain (f :: rest) o c = (o, c₁) := by
  have hc₀ : (c.withPending rest).Free := hc
  rw [drain_free hc]
  unfold handleFault at h
  rw [if_neg (by simp [hc₀.1])] at h
  cases hroute : (c.withPending rest).route f with
  | mk routing c₂ =>
    rw [hroute] at h
    have hrest : c₂.session.isRunning = true → c₂.session.faults.pending = rest := by
      have hpending := route_pending (f := f) hc₀.2
      rwa [hroute] at hpending
    cases routing with
    | unhandled | queued =>
      cases h
      exact .inr (.inl ⟨rfl, hrest, rfl⟩)
    | handled handling =>
      have hhandled := route_handled hc₀.1 hroute
      cases hhandled with
      | started =>
        cases h
        exact .inl ⟨rfl, rfl⟩
      | lost hended =>
        cases h
        exact .inl ⟨Outcome.isFinal_of_terminal hended.terminal.1, rfl⟩
      | @resolved response model hmodel =>
        have hconcluded := (conclude_reported c₂ response model).symm.trans h
        cases hterminal : model.isTerminal with
        | true =>
          have hended : ¬ c₂.Free := fun hfree =>
            nomatch hterminal.symm.trans (hmodel.goes_on hfree.1)
          have hfinal := Outcome.isFinal_of_terminal hterminal
          rw [drain_rests (.inl hended), Outcome.reported_of_final hfinal] at hconcluded
          cases hconcluded
          exact .inl ⟨hfinal, by simp [hterminal]⟩
        | false =>
          have hfree := hmodel.free hterminal
          rw [hrest hfree.1] at hconcluded
          obtain ⟨c₃, ⟨o', hfinal, hdrain⟩ | ⟨hrests, hdrain⟩⟩ := drain_passes rest hrest
          · rw [hdrain, Outcome.reported_of_final hfinal] at hconcluded
            cases hconcluded
            exact .inl ⟨hfinal, by simp [hterminal, hdrain]⟩
          · rw [hdrain] at hconcluded
            cases hconcluded
            refine .inr (.inr ⟨?_, hrests, by simp [hterminal, hdrain]⟩)
            rcases hmodel.waiting_or_advanced hfree with rfl | rfl <;> rfl

/-- The outcome of handling a fault is final, or tells that the fault is resolved. -/
theorem reported_conclude {handling : Handling} (h : c.Handled handling) (b : Bool)
    (response : String) :
    (c.conclude handling).1.reported b response = (c.conclude handling).1 := by
  cases h with
  | started => rfl
  | lost hended =>
    exact Outcome.reported_of_final (Outcome.isFinal_of_terminal hended.terminal.1) ..
  | @resolved name model =>
    rw [conclude_reported]
    cases (drain c.session.faults.pending model c).1 <;> rfl

/-- What a drain leaves to the model to tell, it leaves while no handler runs. -/
theorem reported_drain {model : Outcome} (h : c.Acted model) (response : String) :
    (drain c.session.faults.pending model c).1.reported
      (drain c.session.faults.pending model c).2.session.isSuspended response =
      (drain c.session.faults.pending model c).1.reported false response := by
  have hdrained := drain_drained c.session.faults.pending h
  generalize drain c.session.faults.pending model c = result at hdrained ⊢
  obtain ⟨o, c'⟩ := result
  cases hdrained with
  | started => rfl
  | acted hacted =>
    cases hacted with
    | waiting hfree | advanced hfree => rw [hfree.not_suspended]
    | ended hended =>
      have hfinal := Outcome.isFinal_of_terminal hended.terminal.1
      simp only [Outcome.reported_of_final hfinal]

theorem drain_pending {faults : List Fault}
    (hp : c.session.isRunning = true → c.session.faults.pending = faults) (o : Outcome) :
    drain c.session.faults.pending o c = drain faults o c := by
  by_cases hc : c.Free
  · rw [hp hc.1]
  · rw [drain_rests (.inl hc), drain_rests (.inl hc)]

/-- Wherever the given faults wait, they can have their turn. -/
def Drainable (faults : List Fault) : Prop :=
  ∀ (c : Scene) (o : Outcome),
    (c.session.isRunning = true → c.session.faults.pending = faults) →
      ∃ chains, c.Performs (.drain o) chains (drain c.session.faults.pending o c).1
        (drain c.session.faults.pending o c).2

/-- A handler is started, if those that wait behind it can have their turn. -/
theorem engage_performs {target : Target} {f : Fault} {d : Disposition}
    (hr : c.session.isRunning = true)
    (ht : c.session.faults.response? target.table target.entry = some target.response)
    (hdrain : Drainable c.session.faults.pending)
    {fuel : Nat} (hpos : 0 < fuel) (hn : c.session.faults.tables.length ≤ target.table + fuel) :
    ∃ targets upshot chains, c.Performs (.activate target f d) (⟨f, targets, upshot⟩ :: chains)
      ((engage fuel c target f d).2.conclude (engage fuel c target f d).1).1
      ((engage fuel c target f d).2.conclude (engage fuel c target f d).1).2 := by
  -- The fuel counts the tables left, and each failure takes up at least one of them.
  induction fuel generalizing c target d with
  | zero => exact absurd hpos (Nat.lt_irrefl 0)
  | succ fuel ih =>
    cases hs : c.startHandler target f d with
    | mk p c₁ =>
      obtain ⟨hstatus, hpending, active, ha, rfl⟩ := startHandler_ok hs
      obtain ⟨htable, _, _, hresponses⟩ := startHandler_target hs ha
      have hr₁ := Session.running_of_same hstatus hr
      have hsuspended := suspended_of_active ha
      simp only [engage, hs, ha]
      cases p with
      | waiting =>
        have hactivated := Performs.activate hs ha .wait
        rw [hsuspended] at hactivated
        exact ⟨_, _, _, hactivated⟩
      | advanced =>
        have hactivated := Performs.activate hs ha .advance
        rw [hsuspended] at hactivated
        exact ⟨_, _, _, hactivated⟩
      | finished completion =>
        have hsame : (c₁.resolve active completion).2.session.isRunning = true →
            (c₁.resolve active completion).2.session.faults.pending =
              c.session.faults.pending := fun hr => (resolve_pending hr).trans hpending
        obtain ⟨chains, hdrained⟩ := hdrain _ (c₁.resolve active completion).1 hsame
        have hactivated := Performs.activate hs ha (.resolve hdrained)
        rw [reported_drain (resolve_acted hr₁ active completion)] at hactivated
        simp only [conclude_reported]
        exact ⟨_, _, _, hactivated⟩
      | failed error =>
        simp only
        split
        · rename_i next c₂ he
          obtain ⟨hstatus₂, _, hpending₂⟩ := escalate_ok he
          obtain ⟨hresponses₂, hnearest⟩ := escalate_some he
          have hr₂ := Session.running_of_same hstatus₂ hr₁
          have hlength := Dispatch.length_congr (hresponses₂.trans hresponses)
          have hout := hnearest.outwards
          have hlt := hnearest.lt
          have hfound := escalate_found he
          rw [← hpending, ← hpending₂] at hdrain
          obtain ⟨targets, upshot, chains, hnext⟩ :=
            ih (d := .triggered) hr₂ hfound hdrain (by omega) (by omega)
          have hactivated := Performs.activate hs ha (.escalate he hnext)
          rw [reported_conclude (engage_handled fuel hr₂ hfound)] at hactivated
          exact ⟨_, _, _, hactivated⟩
        · rename_i c₂ he
          exact ⟨_, _, _, Performs.activate hs ha (.exhaust he)⟩

theorem handle_performs {target : Target} {f : Fault} {d : Disposition}
    (hr : c.session.isRunning = true)
    (ht : c.session.faults.response? target.table target.entry = some target.response)
    (hdrain : Drainable c.session.faults.pending) :
    ∃ chains, c.Performs (.activate target f d) chains
      ((c.handle target f d).2.conclude (c.handle target f d).1).1
      ((c.handle target f d).2.conclude (c.handle target f d).1).2 := by
  obtain ⟨_, _, _, hperforms⟩ := engage_performs (f := f) (d := d) hr ht hdrain
    (Nat.succ_pos c.session.faults.tables.length) (by omega)
  exact ⟨_, hperforms⟩

theorem route_performs (hr : c.session.isRunning = true) (f : Fault)
    (hdrain : Drainable c.session.faults.pending) :
    ∃ chains, c.Performs (.route f) chains (c.handleFault f).1 (c.handleFault f).2 := by
  rw [handleFault_eq hr]
  cases hd : c.session.faults.decide f (c.session.inReach f) with
  | unhandled => exact ⟨_, .unhandled hd⟩
  | queue => exact ⟨_, .queue hd⟩
  | preempt target =>
    have hr' := Session.running_of_same (vacated_status c) hr
    rw [← vacated_pending c] at hdrain
    obtain ⟨_, hperforms⟩ :=
      handle_performs (f := f) (d := .preempted) hr' (vacated_found hd) hdrain
    exact ⟨_, .preempt hd hperforms⟩
  | activate target =>
    have hr' : c.counted.session.isRunning = true := hr
    obtain ⟨_, hperforms⟩ := handle_performs (c := c.counted) (f := f) (d := .triggered) hr'
      (decide_found (.inl hd)) hdrain
    exact ⟨_, .trigger hd hperforms⟩

/-- The faults that wait have their turn, one after the other. -/
theorem drain_performs (faults : List Fault) : Drainable faults := by
  induction faults with
  | nil =>
    intro c o hp
    rw [drain_pending hp]
    refine ⟨[], .rest ?_⟩
    by_cases hc : c.Free
    · exact .inr (hp hc.1)
    · exact .inl hc
  | cons f rest ih =>
    intro c o hp
    rw [drain_pending hp]
    by_cases hc : c.Free
    · obtain ⟨chains, hroute⟩ := route_performs (c := c.withPending rest) hc.1 f ih
      generalize hhandled : (c.withPending rest).handleFault f = handled at hroute
      obtain ⟨o₁, c₁⟩ := handled
      rcases drain_cons hc f rest o hhandled with ⟨hfinal, hcons⟩ | ⟨hfinal, hrest, hcons⟩ |
        ⟨hfinal, hrests, hcons⟩
      · rw [hcons]
        exact ⟨_, .stop hc (hp hc.1) hroute hfinal⟩
      · obtain ⟨chains', hdrained⟩ := ih c₁ o hrest
        rw [drain_pending hrest] at hdrained
        rw [hcons]
        exact ⟨_, .draw hc (hp hc.1) hroute hfinal hdrained⟩
      · rw [hcons]
        exact ⟨_, .draw hc (hp hc.1) hroute hfinal (.rest hrests)⟩
    · rw [drain_rests (.inl hc)]
      exact ⟨[], .rest (.inl hc)⟩

theorem settle_performs (hr : c.session.isRunning = true) (active : ActiveHandler)
    (p : Progress) :
    ∃ chains, c.Performs (.settle active p) chains (c.settleHandler active p).1
      (c.settleHandler active p).2 := by
  cases p with
  | waiting => exact ⟨_, .wait⟩
  | advanced => exact ⟨_, .advance⟩
  | finished completion =>
    obtain ⟨_, hdrained⟩ := drain_performs (c.resolve active completion).2.session.faults.pending
      (c.resolve active completion).2 (c.resolve active completion).1 fun _ => rfl
    exact ⟨_, .resolve hdrained⟩
  | failed error =>
    simp only [settleHandler]
    split
    · rename_i next c₁ he
      obtain ⟨hstatus, _, _⟩ := escalate_ok he
      have hr₁ := Session.running_of_same hstatus hr
      obtain ⟨_, hnext⟩ := handle_performs (f := active.fault) (d := .triggered) hr₁
        (escalate_found he) (drain_performs _)
      exact ⟨_, .escalate he hnext⟩
    · rename_i c₁ he
      exact ⟨_, .exhaust he⟩

/-- Every delivery has a course. -/
theorem deliver_performs (c : Scene) (signal : Signal) :
    ∃ chains, c.Performs (.deliver signal) chains (c.deliver signal).1 (c.deliver signal).2 := by
  cases hr : c.session.isRunning with
  | false =>
    have hignored : c.deliver signal = (.ignored, c) := by
      cases signal with
      | event e => exact handleEvent_idle hr e
      | fault f => exact handleFault_idle hr f
    rw [hignored]
    exact ⟨[], .ignore signal hr⟩
  | true =>
    cases signal with
    | fault f =>
      obtain ⟨_, hroute⟩ := route_performs hr f (drain_performs _)
      exact ⟨_, .fault hr hroute⟩
    | event e =>
      simp only [deliver]
      by_cases he : e.task = c.session.root.id ∧ e.name.isTerminal = true
      · rw [handleEvent_root hr he]
        exact ⟨[], .rootEnds hr he⟩
      · cases ha : c.session.faults.active with
        | none =>
          rw [handleEvent_model hr ha he rfl]
          exact ⟨[], .model hr he ha rfl⟩
        | some active =>
          obtain ⟨p, engine, s, hs⟩ : ∃ p engine s,
              active.engine.onEvent e (c.hear e).stage = (p, engine, s) := ⟨_, _, _, rfl⟩
          rw [handleEvent_handler hr ha he hs]
          have hr' : ((c.hear e).withHandler active engine s).session.isRunning = true := hr
          obtain ⟨_, hsettled⟩ := settle_performs hr' { active with engine } p
          exact ⟨_, .handler hr he ha hs hsettled⟩

/-- The course of a delivery tells what comes of it. -/
theorem Performs.deliver_eq {signal : Signal} {chains : List Chain}
    (h : c.Performs (.deliver signal) chains o c') : (o, c') = c.deliver signal := by
  obtain ⟨_, hdelivered⟩ := c.deliver_performs signal
  obtain ⟨_, ho, hc⟩ := h.unique hdelivered
  exact Prod.ext ho hc

end Scene

/-- Every delivery comes to an end, and in one way only. At most one chain of handlers is started
for each fault that waited and for the signal itself. The handlers of a chain come from tables
further and further out, so that all in all no more are started than the chains times the tables. -/
theorem delivery_ends (c : Scene) (signal : Signal) :
    ∃ chains,
      c.Performs (.deliver signal) chains (c.deliver signal).1 (c.deliver signal).2 ∧
      (∀ chains' o c', c.Performs (.deliver signal) chains' o c' →
        chains' = chains ∧ (o, c') = c.deliver signal) ∧
      chains.length ≤ c.session.faults.pending.length + 1 ∧
      (∀ chain ∈ chains, chain.Outward c.session.faults.tables.length) ∧
      (chains.flatMap Chain.targets).length ≤
        (c.session.faults.pending.length + 1) * c.session.faults.tables.length := by
  obtain ⟨chains, hperforms⟩ := c.deliver_performs signal
  have hlength : chains.length ≤ c.session.faults.pending.length + 1 := by
    have hpaid := hperforms.length_le
    have hwaiting := c.waiting_le
    simp only [Job.cost] at hpaid
    omega
  have hout := (hperforms.outward trivial).1
  refine ⟨chains, hperforms, ?_, hlength, hout, ?_⟩
  · intro chains' o c' hperforms'
    exact ⟨(hperforms'.unique hperforms).1, hperforms'.deliver_eq⟩
  · exact Nat.le_trans (Chain.length_targets_le hout) (Nat.mul_le_mul_right _ hlength)

end Conductor
