import Conductor.Proofs.Engine.Attention
import Conductor.Proofs.Engine.Memory
import Conductor.Proofs.Session.Paths

/-!
Memos do not show. Evaluating a guard of the active step with the memo of the step comes to the same as
evaluating it from scratch, as long as no task emits what it had ended without. A leaf that waits for
such an event stays ruled out in the memo, whereas from scratch it is true.
-/

namespace Conductor

/-- In a step that has its task, the truth of a guard depends on the verdicts on its leaves, and the
memo of the step changes the verdict on a leaf exactly if it has the leaf as ruled out and the event
of the leaf came late. Unless there is such a leaf, the memo makes no difference. -/
theorem memo_transparent_unless_late {lane : Lane} {e : Engine} {s : Stage} {n : Nat}
    (h : e.Run lane s n) {step : ActiveStep} (hstep : e.course.step = some step)
    (hreplaced : e.course.replaced = false) (g : Guard) :
    let focus := step.focus e.course.last
    let memo := e.course.memo
    (s.evaluate g focus memo).1 = g.weigh (s.verdict focus memo) ∧
      (s.evaluate g focus .empty).1 = g.weigh (s.verdict focus .empty) ∧
      (∀ l, s.verdict focus memo l ≠ s.verdict focus .empty l ↔
        memo.lookup l = some false ∧ s.Late focus l) ∧
      ((∀ l ∈ g.allLeaves, memo.lookup l = some false → ¬ s.Late focus l) →
        (s.evaluate g focus memo).1 = (s.evaluate g focus .empty).1) := by
  intro focus memo
  have hkept : memo.Kept s.log s.root focus := h.mindful step hstep hreplaced
  have hmemo := s.evaluate_eq_weigh g focus memo
  have hfresh := s.evaluate_eq_weigh g focus .empty
  refine ⟨hmemo, hfresh, hkept.verdict_ne_iff, fun hlate => ?_⟩
  rw [hmemo, hfresh]
  refine g.weigh_congr fun l hl => Decidable.of_not_not fun hne => ?_
  obtain ⟨hfalse, hcame⟩ := (hkept.verdict_ne_iff l).mp hne
  exact hlate l hl hfalse hcame

/-! ## A sample -/

/-- The worker succeeds, or the root says to go on. -/
def Guard.either : Guard := .any [.on .success, .leaf (.emitted .root ⟨"go"⟩)]

theorem Guard.mem_either {l : Leaf} (h : l ∈ Guard.either.allLeaves) :
    l = .emitted .current .success ∨ l = .emitted .root ⟨"go"⟩ := by
  simpa [either, on, allLeaves, allLeavesList] using h

/-- A session whose worker has failed. It waits for the root. -/
def Scene.patient : Scene :=
  Scene.after ⟨.employing (.script ⟨"patrol", [],
    [⟨"go", some (.builder "worker" .empty), none, .either, []⟩]⟩), .sample⟩
      [.start, .deliver (.event .failure)]

theorem Scene.patient_underway : Scene.patient.Underway :=
  Scene.after_underway (Session.employing_unstarted _) .sample _

/-- While the worker has failed and not succeeded, the guard is pending with the memo and without. -/
theorem memo_transparent_unless_late_failed :
    let c := Scene.patient
    ∃ step, c.session.engine.course.step = some step ∧ c.session.engine.course.memo ≠ .empty ∧
      (c.stage.evaluate .either (step.focus c.session.engine.course.last)
        c.session.engine.course.memo).1 =
      (c.stage.evaluate .either (step.focus c.session.engine.course.last) .empty).1 := by
  intro c
  obtain ⟨n, hrun⟩ := Scene.patient_underway.model
  obtain ⟨step, hstep, hfocus⟩ : ∃ step, c.session.engine.course.step = some step ∧
      step.focus c.session.engine.course.last = ⟨some (Plan.idOf 2), 0⟩ := ⟨_, rfl, by decide⟩
  refine ⟨step, hstep, by decide, ?_⟩
  refine (memo_transparent_unless_late hrun hstep (by decide) .either).2.2.2 fun l hl hfalse => ?_
  rintro ⟨ref, event, task, rfl, htask, _, _, _, _, hoccurred⟩
  rw [hfocus] at htask hoccurred
  rcases Guard.mem_either hl with h | h
  · cases h
    cases htask
    exact absurd hoccurred (by decide)
  · cases h
    exact absurd hfalse (by decide)

/-- The worker has succeeded. -/
def Event.achieved : Event := ⟨Plan.idOf 2, .success, none⟩

/-- The worker fails and then succeeds. From scratch the guard is true, but the memo has success as
ruled out, so the session goes on waiting. -/
theorem memo_outdated :
    let c := Scene.patient.hear .achieved
    ∃ step n, c.session.engine.Run .model c.stage n ∧ c.session.engine.isRunning = true ∧
      c.session.engine.course.step = some step ∧ c.session.engine.course.replaced = false ∧
      .either ∈ c.session.engine.guards ∧
      (c.stage.evaluate .either (step.focus c.session.engine.course.last)
        c.session.engine.course.memo).1 = .pending ∧
      (c.stage.evaluate .either (step.focus c.session.engine.course.last) .empty).1 = .yes := by
  intro c
  obtain ⟨n, hrun⟩ := (Scene.patient_underway.hear .achieved).model
  exact ⟨_, n, hrun, by decide, rfl, by decide, by decide, by decide, by decide⟩

end Conductor
