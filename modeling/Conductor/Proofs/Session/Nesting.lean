import Conductor.Proofs.Engine.Onward
import Conductor.Proofs.Session.Calls
import Conductor.Proofs.Stage.Outputs

/-!
How the scopes of a session are nested. The session's own scope is outermost, the model's is inside
it, and the scope of the active handler, if there is one, is inside that. Each engine keeps its
variables in its own scope, so what a handler puts out stays apart from what the model put out.
-/

namespace Conductor

namespace Scene

variable {c c' : Scene}

/-- The scopes of a session while it runs a handler or none. -/
def nesting (c : Scene) : Nat := if c.session.faults.active.isSome then 3 else 2

/-- Every scope belongs to whom it should. -/
structure Nested (c : Scene) : Prop where
  model : c.session.engine.course.depth = 1
  handler : ∀ active, c.session.faults.active = some active → active.engine.course.depth = 2
  scopes : c.session.core.scopes.depth = c.nesting

namespace Nested

theorem of_same (h : c.Nested) (he : c'.session.engine = c.session.engine)
    (ha : c'.session.faults.active = c.session.faults.active)
    (hs : c'.session.core.scopes = c.session.core.scopes) : c'.Nested where
  model := by
    rw [he]
    exact h.model
  handler := by
    rw [ha]
    exact h.handler
  scopes := by
    rw [hs, nesting, ha]
    exact h.scopes

theorem of_no_handler (hm : c.session.engine.course.depth = 1)
    (ha : c.session.faults.active = none) (hs : c.session.core.scopes.depth = 2) : c.Nested :=
  ⟨hm, fun _ h => (nomatch ha.symm.trans h), by rw [hs, nesting, ha]; rfl⟩

/-- Closing the scope of the handler leaves the session's own and the model's. -/
theorem pop (h : c.Nested) {active : ActiveHandler} (ha : c.session.faults.active = some active)
    {scopes : Scopes} (hs : scopes.depth = c.session.core.scopes.depth) :
    scopes.pop.2.depth = 2 := by
  have hthree : scopes.depth = 3 := by rw [hs, h.scopes, nesting, ha]; rfl
  rw [Scopes.pop_depth, hthree]
  rfl

theorem abandonHandler (h : c.Nested) (hs : c.Sound) : c.abandonHandler.2.Nested := by
  unfold Scene.abandonHandler
  split
  · exact h
  · rename_i active ha
    have hstop := (Engine.stop_calms (hs.handler active ha) c.stage).1.moves.depth
    exact of_no_handler h.model (by simp [map, Session.advancePhase, Session.popScope])
      (h.pop ha hstop)

theorem closing (h : c.Nested) (hs : c.Sound) {g : Session → Session} (hg : Closing g)
    (hc : c' = c.retireEverything.map g) : c'.Nested := by
  have hcleared := h.abandonHandler hs
  have hstop := (Engine.stop_calms hs.cleared c.cleared.stage).1.moves.depth
  have hengine := (Engine.stop_onward c.cleared.session.engine c.cleared.stage).depth
  have hdepth : c.cleared.session.core.scopes.depth = 2 := by
    have h := hcleared.scopes
    rw [nesting, abandonHandler_active] at h
    exact h
  have hfaults := (cleared_faults c).1
  rw [retireEverything_eq] at hc hfaults
  rw [hc]
  refine of_no_handler ?_ ?_ ?_
  · simp only [map, hg.engine, withEngine_engine]
    exact hengine.trans hcleared.model
  · simp only [map, hg.faults]
    exact hfaults
  · simp only [map, hg.scopes, withEngine_core, Stage.retireAll_scopes]
    exact hstop.trans hdepth

theorem turn {m m' : Moment} (ht : Turn m m') (hs : m.scene.Sound) (h : m.scene.Nested) :
    m'.scene.Nested := by
  cases ht with
  | begin | cancel | hear | count | unhandled | draw | trigger => exact h.of_same rfl rfl rfl
  | model hr ha hact =>
    have hdepth := (hact.moves hs.model).1.depth
    refine of_no_handler (hact.depth.trans h.model) ha (hdepth.trans ?_)
    have hscopes := h.scopes
    rw [nesting, ha] at hscopes
    exact hscopes
  | @handler c active e s hr ha hact =>
    have hdepth := (hact.moves (hs.handler _ ha)).1.depth
    refine ⟨h.model, fun other ho => ?_, ?_⟩
    · obtain rfl := Option.some.inj ho
      exact hact.depth.trans (h.handler _ ha)
    · have hscopes := h.scopes
      rw [nesting, ha] at hscopes
      exact hdepth.trans hscopes
  | @queue c f hr ha =>
    obtain ⟨trail, he⟩ := c.enqueue_eq f
    obtain ⟨pending, hq⟩ := c.session.faults.enqueue_eq f
    show (c.enqueue f).Nested
    rw [he]
    have hactive : (c.session.faults.enqueue f).2.active = c.session.faults.active := by rw [hq]
    exact h.of_same rfl hactive rfl
  | displace hr ha => exact (h.abandonHandler hs).of_same rfl rfl rfl
  | @install c f target hr ha =>
    have hscopes : c.session.core.scopes.depth = 2 := by
      have hscopes := h.scopes
      rw [nesting, ha] at hscopes
      exact hscopes
    refine ⟨h.model, fun other ho => ?_, ?_⟩
    · obtain rfl := Option.some.inj ho
      exact (Engine.new_depth ..).trans hscopes
    · exact congrArg (· + 1) hscopes
  | @resolve c active completion hr ha =>
    exact of_no_handler h.model (endHandler_active ..) (h.pop ha rfl)
  | @escalate c active hr ha =>
    exact of_no_handler h.model (endHandler_active ..) (h.pop ha rfl)
  | @exhaust c f hr =>
    obtain ⟨g, hg, he⟩ := fail_eq (c.giveUp f) .escalationExhausted
    have hgiven : (c.giveUp f).Nested := h.of_same rfl rfl rfl
    have hsound : (c.giveUp f).Sound := hs.of_same rfl rfl id
    exact hgiven.closing hsound hg he
  | succeed completion hr =>
    obtain ⟨g, hg, he⟩ := succeed_eq _ completion
    exact h.closing hs hg he
  | fail error hr =>
    obtain ⟨g, hg, he⟩ := fail_eq _ error
    exact h.closing hs hg he
  | halt reason hr =>
    obtain ⟨g, hg, he⟩ := halt_eq _ reason
    exact h.closing hs hg he

theorem drive (h : c.Nested) (command : Ground.Command) : (c.drive command).Nested := by
  have hsame := c.drive_session command
  exact h.of_same (by rw [hsame]) (by rw [hsame]) (by rw [hsame])

theorem call (h : c.Nested) (hs : c.Sound) (call : Call) : (c.call call).Nested :=
  (call_preserves (fun _ _ => turn) hs call (fun command _ h => h.drive command) h).1

theorem after (h : c.Nested) (hs : c.Sound) (calls : List Call) : (c.after calls).Nested :=
  after_preserves (fun _ _ => turn) hs (fun _ command _ h => h.drive command) h

end Nested

end Scene

theorem Session.Unstarted.nested {root : Handle} {s : Session} (h : s.Unstarted root) (p : Plan) :
    Scene.Nested ⟨s, p⟩ := by
  refine .of_no_handler ?_ h.fresh.active ?_
  · induction h with
    | new id model => exact Engine.new_depth ..
    | withConfig config _ ih | withCatalog catalog _ ih | withTable t _ ih => exact ih
  · induction h with
    | new id model => rfl
    | withConfig config _ ih | withCatalog catalog _ ih | withTable t _ ih => exact ih

end Conductor
