import Conductor.Proofs.Engine.DeadEnds
import Conductor.Proofs.Session.Paths

/-!
Dead ends for good. What an engine gives up is lost as far as events go: whatever else the tasks emit
that have not ended, no guard of the step holds any more. A guard that reads a variable can still hold
when the variable is written, as a fault handler may do.
-/

namespace Conductor

/-- An engine that reports a dead end waits in a step of which all guards are false. A guard stays
false however the log goes on, as long as it is false without the leaves whose variables have another
value. It can only become anything else by a leaf that such a variable had decided. -/
theorem dead_end_unless_rebound {e e' : Engine} {s s' : Stage} {error : Error}
    (h : e.Answers s (.failed error) e' s') (hdead : error.isDeadEnd = true) :
    ∃ step, e.course.step = some step ∧ e.isRunning = true ∧ ∀ g ∈ e.guards,
      let focus := step.focus e.course.last
      let memo := e'.course.memo
      (s.evaluate g focus memo).1 = .no ∧ ∀ s₂ : Stage, s.log.Continues s₂.log → s₂.root = s.root →
        (g.weigh (s.lasting s₂ focus memo) = .no → (s₂.evaluate g focus memo).1 = .no) ∧
        ((s₂.evaluate g focus memo).1 ≠ .no → ∃ l ∈ g.allLeaves, ∃ name,
          l.varName? = some name ∧ (s.verdict focus memo l).isDecided = true ∧
            s₂.look name ≠ s.look name) := by
  obtain ⟨step, hrunning, hactive, hno⟩ := h.barred hdead
  refine ⟨step, hactive, hrunning, fun g hg => ?_⟩
  intro focus memo
  refine ⟨hno g hg, fun s₂ hlog hroot => ⟨Stage.evaluate_eq_no hlog hroot, fun hother => ?_⟩⟩
  refine Decidable.byContradiction fun hnone => hother (Stage.evaluate_eq_no hlog hroot ?_)
  have hlasting : g.weigh (s.lasting s₂ focus memo) = g.weigh (s.verdict focus memo) :=
    g.weigh_congr fun l hl => Stage.lasting_eq_verdict fun name hvar hdecided =>
      Decidable.byContradiction fun hlook => hnone ⟨l, hl, name, hvar, hdecided, hlook⟩
  rw [hlasting, ← s.evaluate_eq_weigh]
  exact hno g hg

/-! ## A sample -/

/-- The mode is to abort. -/
def Guard.aborting : Guard := .leaf (.equals "mode" (.text "abort"))

/-- A machine that walks until it is to abort. -/
def Machine.aborting : Machine :=
  ⟨"patrol", [⟨"mode", none, .constant (.text "run")⟩],
    [⟨"walk", some (.builder "worker" .empty), [⟨.aborting, "home", []⟩], [], false⟩, .home], "walk"⟩

/-- A session that has started to walk and hears of something else. -/
def Scene.aborting : Scene :=
  (Scene.after ⟨.employing (.machine .aborting), .sample⟩ [.start]).hear .tick

/-- What the model reports then. -/
theorem Scene.aborting_fails :
    let c := Scene.aborting
    (c.session.engine.onEvent .tick c.stage).1 = .failed (.noApplicableTransition "walk") := by
  decide

/-- The mode is still to run when the root says to go on. -/
theorem dead_end_unless_rebound_heard :
    let c := Scene.aborting
    ∃ step, c.session.engine.course.step = some step ∧
      ((c.hear .go).stage.evaluate .aborting (step.focus c.session.engine.course.last)
        (c.session.engine.onEvent .tick c.stage).2.1.course.memo).1 = .no := by
  intro c
  have hanswers := Engine.Answers.onEvent (e := c.session.engine) (s := c.stage) .tick
  rw [Scene.aborting_fails] at hanswers
  obtain ⟨step, hstep, -, hguards⟩ := dead_end_unless_rebound hanswers rfl
  obtain ⟨hno, hlasts⟩ := hguards .aborting (by decide)
  refine ⟨step, hstep, ?_⟩
  refine Decidable.byContradiction fun hother => ?_
  have hlog : c.stage.log.Continues (c.hear .go).stage.log := .record .go .refl (by decide)
  obtain ⟨l, -, name, -, -, hlook⟩ := (hlasts (c.hear .go).stage hlog rfl).2 hother
  exact hlook rfl

/-- The model gives up while the mode is to run. Once the mode is set to abort, its only transition
can be taken. -/
theorem dead_end_reopened :
    let c := Scene.aborting
    ∃ step n scopes, c.session.engine.Run .model c.stage n ∧
      c.session.engine.course.step = some step ∧ .aborting ∈ c.session.engine.guards ∧
      (c.session.engine.onEvent .tick c.stage).1 = .failed (.noApplicableTransition "walk") ∧
      c.stage.scopes.set "mode" (.text "abort") = .ok scopes ∧
      (({ c.stage with scopes } : Stage).evaluate .aborting (step.focus c.session.engine.course.last)
        (c.session.engine.onEvent .tick c.stage).2.1.course.memo).1 = .yes := by
  intro c
  have hunderway := Scene.after_underway (Session.employing_unstarted (.machine .aborting)) .sample
    [.start]
  obtain ⟨n, hrun⟩ := (hunderway.hear .tick).model
  exact ⟨_, n, _, hrun, rfl, by decide, Scene.aborting_fails, rfl, by decide⟩

end Conductor
