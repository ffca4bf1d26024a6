import Conductor.Proofs.Session.Nesting

/-!
The lives of responses in a session. A session takes an entry through its phases while it starts,
displaces and ends handlers. Between two turns the entry of the active handler is being handled and
every other one is at rest, so no move that the session makes is refused.
-/

namespace Conductor

namespace Scene

variable {c c' : Scene}

theorem abandonHandler_settled (h : c.session.faults.Settled) :
    c.abandonHandler.2.session.faults.Settled := by
  unfold abandonHandler
  split
  · exact h
  · rename_i active ha
    exact h.abandoned ha

theorem endHandler_settled (h : c.session.faults.Settled) {active : ActiveHandler} {phase : Phase}
    (ha : c.session.faults.active = some active) (hp : phase = .resolved ∨ phase = .escalated) :
    (c.endHandler active phase).session.faults.Settled :=
  h.ended ha hp

theorem closing_settled (h : c.session.faults.Settled) {g : Session → Session} (hg : Closing g)
    (hc : c' = c.retireEverything.map g) : c'.session.faults.Settled := by
  rw [hc]
  simp only [map, hg.faults]
  rw [retireEverything_eq, withEngine_faults]
  exact (abandonHandler_settled h).of_same rfl rfl rfl

theorem turn_settled {m m' : Moment} (ht : Turn m m') (h : m.scene.session.faults.Settled) :
    m'.scene.session.faults.Settled := by
  cases ht with
  | begin | cancel | hear | count | model | unhandled | trigger => exact h
  | handler hr ha => exact h.of_same rfl rfl (by rw [ha]; rfl)
  | @queue c f hr ha =>
    obtain ⟨trail, he⟩ := c.enqueue_eq f
    obtain ⟨pending, hq⟩ := c.session.faults.enqueue_eq f
    show (c.enqueue f).session.faults.Settled
    rw [he]
    simp only [map, hq]
    exact h.of_same rfl rfl rfl
  | draw => exact h.of_same rfl rfl rfl
  | displace => exact abandonHandler_settled h
  | @install c f target hr ha ht =>
    have hfound : c.session.faults.response? (c.fresh target f).table (c.fresh target f).entry =
        some target.response := ht
    have hsettled := h.taken ha hfound rfl
    exact hsettled
  | resolve completion hr ha => exact endHandler_settled h ha (.inl rfl)
  | escalate hr ha => exact endHandler_settled h ha (.inr rfl)
  | @exhaust c f =>
    obtain ⟨g, hg, he⟩ := fail_eq (c.giveUp f) .escalationExhausted
    exact closing_settled (c := c.giveUp f) h hg he
  | succeed completion =>
    obtain ⟨g, hg, he⟩ := succeed_eq _ completion
    exact closing_settled h hg he
  | fail error =>
    obtain ⟨g, hg, he⟩ := fail_eq _ error
    exact closing_settled h hg he
  | halt reason =>
    obtain ⟨g, hg, he⟩ := halt_eq _ reason
    exact closing_settled h hg he

theorem after_settled (hs : c.Sound) (h : c.session.faults.Settled) (calls : List Call) :
    (c.after calls).session.faults.Settled := by
  refine after_preserves (P := fun c => c.session.faults.Settled) (fun _ _ ht _ => turn_settled ht)
    hs (fun d command _ hd => ?_) h
  rw [drive_session]
  exact hd

end Scene

theorem Session.Unstarted.refused {root : Handle} {s : Session} (h : s.Unstarted root) :
    s.faults.refused = 0 := by
  induction h with
  | new id model => rfl
  | withConfig config _ ih | withCatalog catalog _ ih | withTable t _ ih => exact ih

theorem Session.Unstarted.settled {root : Handle} {s : Session} (h : s.Unstarted root)
    (ht : ∀ t ∈ s.faults.tables, t.Untouched) : s.faults.Settled :=
  .of_resting (.of_untouched ht h.refused) h.fresh.active

/-- The phases of the entries, the scopes and the active handler, if there is one, agree. -/
structure Session.Orderly (s : Session) : Prop where
  handling : ∀ active, s.faults.active = some active →
    s.faults.phase? active.table active.entry = some .handling
  idle : ∀ table entry phase, s.faults.phase? table entry = some phase →
    (∀ active, s.faults.active = some active → ¬ (table = active.table ∧ entry = active.entry)) →
      phase = .idle
  depth : s.core.scopes.depth = if s.faults.active.isSome then 3 else 2
  scope : ∀ active, s.faults.active = some active → active.engine.course.depth = 2
  priority : ∀ active, s.faults.active = some active →
    (s.faults.response? active.table active.entry).map Response.priority = some active.priority
  refused : s.faults.refused = 0

theorem Scene.Nested.orderly {c : Scene} (h : c.Nested) (hf : c.session.faults.Settled) :
    c.session.Orderly where
  handling active ha := (hf.handling active ha).here
  idle table entry phase hp hother := by
    cases ha : c.session.faults.active with
    | none => exact (hf.resting ha).idle table entry phase hp
    | some active => exact (hf.handling active ha).others table entry phase (hother active ha) hp
  depth := h.scopes
  scope := h.handler
  priority := hf.priority
  refused := by
    cases ha : c.session.faults.active with
    | none => exact (hf.resting ha).refused
    | some active => exact (hf.handling active ha).refused

/-- Whatever is done with a session, the entry of the active handler is being handled and every
other one is idle. The scopes are the session's own, the model's and that of the active handler, and
no move of an entry was ever refused. -/
theorem orderly_after {root : Handle} {s : Session} (hs : s.Unstarted root)
    (ht : ∀ t ∈ s.faults.tables, t.Untouched) (p : Plan) (calls : List Call) :
    ((⟨s, p⟩ : Scene).after calls).session.Orderly :=
  ((hs.nested p).after (hs.fresh.sound p) calls).orderly
    (Scene.after_settled (hs.fresh.sound p) (hs.settled ht) calls)

theorem orderly_while_mending :
    ((⟨Session.sample.withTable .sample, .sample⟩ : Scene).after
      [.start, .deliver (.fault .sample)]).session.activeHandler? = some "mend" ∧
    ((⟨Session.sample.withTable .sample, .sample⟩ : Scene).after
      [.start, .deliver (.fault .sample)]).session.Orderly := by
  refine ⟨by decide, ?_⟩
  refine orderly_after (.withTable .sample Session.sample_unstarted) (fun t ht => ?_) .sample _
  obtain rfl := List.mem_singleton.mp ht
  exact ResponseTable.ofResponses_untouched _ _

end Conductor
