import Conductor.Engine.ScriptRun
import Conductor.Proofs.Engine.CourseMoves

/-! A script makes moves of its own lane only, and stays in it. It records the output of a step only
when an event lets it leave the step. -/

namespace Conductor

namespace ScriptRun

variable {lane : Lane} {loud : Bool} {r r' : ScriptRun} {s s' : Stage}

theorem exitAction_calms (focus : Focus) (task : Option Handle) (action : ExitAction) (s : Stage) :
    s.Calms lane true (match action with
      | .assign a => s.assign a focus task
      | .emit event => s.emitOnRoot event none).2 := by
  cases action with
  | assign a => exact Stage.assign_calms (Eq.refl (s.assign a focus task))
  | emit event => exact Stage.emitOnRoot_calms (Eq.refl (s.emitOnRoot event none))

theorem exitActions_calms {focus : Focus} {task : Option Handle} {actions : List ExitAction}
    {result : Except Error Unit} (h : exitActions focus task actions s = (result, s')) :
    s.Calms lane true s' := by
  induction actions generalizing s with
  | nil =>
    cases h
    exact .refl
  | cons action rest ih =>
    have hmove : s.Calms lane true _ := exitAction_calms focus task action s
    simp only [exitActions] at h
    split at h
    · exact hmove.trans (ih h)
    · cases h
      exact hmove

theorem recordOutput_reports (r : ScriptRun) (label : String) (step : ActiveStep)
    (event : Option Event) (s : Stage) :
    s.Reports lane r.depth event.isSome (r.recordOutput label step event s) := by
  unfold recordOutput
  split
  · split
    · split
      · exact .output _ _ rfl .refl .refl
      · exact .calm .refl
    · exact .calm .refl
  · exact .calm .refl

theorem exit_reports {instruction : Instruction} {event : Option Event}
    {result : Except Error Unit} (hr : r.RunsIn lane)
    (h : r.exit instruction event s = (result, r', s')) :
    s.Reports lane r.depth event.isSome s' ∧ r'.RunsIn lane := by
  unfold exit at h
  split at h
  · cases h
    exact ⟨.calm .refl, hr⟩
  · rename_i step hstep
    have hout : s.Reports lane r.depth event.isSome _ :=
      recordOutput_reports r instruction.label step event s
    simp only at h
    split at h
    · rename_i he
      cases h
      exact ⟨hout.after (exitActions_calms he), .of_no_step hr.home rfl⟩
    · rename_i he
      cases h
      refine ⟨hout.after ?_, .of_no_step hr.home rfl⟩
      exact ((exitActions_calms he).tail (.retire _ (hr.step step hstep))).tail (.record _ rfl)

theorem exit_moves_on {instruction : Instruction} {event : Option Event}
    (h : r.exit instruction event s = (.ok (), r', s')) :
    r'.script = r.script ∧ r'.pc = r.pc + 1 := by
  unfold exit at h
  split at h
  · cases h
  · simp only at h
    split at h
    · cases h
    · cases h
      exact ⟨rfl, rfl⟩

theorem mayEnter_calms {instruction : Instruction} {may : Bool}
    (h : r.mayEnter instruction s = (may, s')) : s.Calms lane loud s' := by
  unfold mayEnter at h
  split at h
  · cases h
    exact .refl
  · rename_i guard _
    cases h
    exact Stage.evaluate_calms s guard (r.last.getD ⟨none, s.log.cursor⟩) .empty

theorem enterFrom_calms {rest : List Instruction} {p : Progress} (hr : r.RunsIn lane)
    (h : enterFrom rest r s = (p, r', s')) : s.Calms lane true s' ∧ r'.RunsIn lane := by
  induction rest generalizing r s with
  | nil =>
    cases h
    exact Course.conclude_calms hr rfl
  | cons instruction rest ih =>
    have hentered : Course.RunsIn lane r.toCourse.enterStep := hr.of_eq rfl rfl
    simp only [enterFrom, skip] at h
    split at h
    · rename_i hmay
      have hskipped : ∀ path, Course.RunsIn lane { r.toCourse.enterStep with path } :=
        fun _ => hr.of_eq rfl rfl
      obtain ⟨hm, hr'⟩ := ih (hskipped _) h
      exact ⟨((mayEnter_calms hmay).tail (.record (.skipped r.pc instruction.label) rfl)).trans hm,
        hr'⟩
    · rename_i hmay
      have hbefore : s.Calms lane true _ := mayEnter_calms hmay
      split at h
      · rename_i htask
        have htaken := hbefore.trans (Course.takeTask_calms hentered htask)
        cases h
        exact And.imp_left htaken.trans (Course.conclude_calms hentered rfl)
      · rename_i task _ htask
        have htaken := hbefore.trans (Course.takeTask_calms hentered htask)
        have hactive : Course.RunsIn lane { r.toCourse.enterStep with
            step := some ⟨r.toCourse.enterStep.key instruction.label, task, s.log.cursor⟩ } := by
          refine ⟨hr.home, fun step hs => ?_⟩
          cases hs
          exact hr.home
        split at h
        · split at h
          · rename_i hexit
            obtain ⟨hm, hr₁⟩ := exit_reports hactive hexit
            cases h
            exact And.imp_left (htaken.trans hm.calms).trans (Course.conclude_calms hr₁ rfl)
          · rename_i hexit
            obtain ⟨hm, hr₁⟩ := exit_reports hactive hexit
            obtain ⟨hm', hr'⟩ := ih hr₁ h
            exact ⟨(htaken.trans hm.calms).trans hm', hr'⟩
        · cases h
          exact ⟨htaken.trans (Course.subscribe_calms hactive _ _), hactive⟩

theorem enter_calms {p : Progress} (hr : r.RunsIn lane) (h : r.enter s = (p, r', s')) :
    s.Calms lane true s' ∧ r'.RunsIn lane :=
  enterFrom_calms hr h

theorem check_reports {event : Option Event} {p : Progress} (hr : r.RunsIn lane)
    (h : r.check event s = (p, r', s')) :
    s.Reports lane r.depth event.isSome s' ∧ r'.RunsIn lane := by
  unfold check at h
  split at h
  · cases h
    exact And.imp_left .calm (Course.conclude_calms hr rfl)
  · cases h
    exact ⟨.calm .refl, hr⟩
  · rename_i instruction step _ _
    rcases hv : s.evaluate instruction.exitGuard (step.focus r.last) r.memo with ⟨truth, memo, t⟩
    have heval : s.Calms lane true t := by
      have hcalms : s.Calms lane true _ := Stage.evaluate_calms s instruction.exitGuard
        (step.focus r.last) r.memo
      rwa [hv] at hcalms
    have hmemo : Course.RunsIn lane { r.toCourse with memo } := hr.of_eq rfl rfl
    simp only [hv] at h
    split at h
    · split at h
      · rename_i hexit
        obtain ⟨hm, hr₁⟩ := exit_reports hmemo hexit
        cases h
        exact And.imp_left (Stage.Reports.before heval hm).after (Course.conclude_calms hr₁ rfl)
      · rename_i hexit
        obtain ⟨hm, hr₁⟩ := exit_reports hmemo hexit
        obtain ⟨hm', hr'⟩ := enter_calms hr₁ h
        exact ⟨(Stage.Reports.before heval hm).after hm', hr'⟩
    · cases h
      exact And.imp_left (.calm ∘ heval.trans) (Course.conclude_calms hmemo rfl)
    · cases h
      exact ⟨.calm (heval.trans (Course.subscribe_calms hmemo _ _)), hmemo⟩

theorem start_calms {p : Progress} (hr : r.RunsIn lane) (h : r.start s = .ok (p, r', s')) :
    s.Calms lane true s' ∧ r'.RunsIn lane := by
  unfold start at h
  split at h
  · cases h
  split at h
  · cases h
  · have hbegin : Course.RunsIn lane r.toCourse.begin := .of_no_step hr.home rfl
    exact enter_calms hbegin (Except.ok.inj h)

theorem onEvent_reports {event : Event} {p : Progress} (hr : r.RunsIn lane)
    (h : r.onEvent event s = (p, r', s')) :
    s.Reports lane r.depth true s' ∧ r'.RunsIn lane := by
  unfold onEvent at h
  split at h
  · cases h
    exact ⟨.calm .refl, hr⟩
  · exact check_reports hr h

theorem resume_calms {p : Progress} (hr : r.RunsIn lane) (h : r.resume s = (p, r', s')) :
    s.Calms lane true s' ∧ r'.RunsIn lane := by
  unfold resume at h
  split at h
  · cases h
    exact ⟨.refl, hr⟩
  split at h
  · exact enter_calms hr h
  · obtain ⟨hm, hr'⟩ := check_reports hr h
    exact ⟨hm.calms, hr'⟩

end ScriptRun

end Conductor
