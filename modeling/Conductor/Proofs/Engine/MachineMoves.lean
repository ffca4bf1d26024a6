import Conductor.Engine.MachineRun
import Conductor.Proofs.Engine.CourseMoves

/-! A state machine makes moves of its own lane only, and stays in it. -/

namespace Conductor

namespace MachineRun

variable {lane : Lane} {loud : Bool} {r r' : MachineRun} {s s' : Stage} {p : Progress}

theorem enter_calms {id : String} (hr : r.RunsIn lane) (h : r.enter id s = (p, r', s')) :
    s.Calms lane loud s' ∧ r'.RunsIn lane := by
  have hentered : Course.RunsIn lane r.toCourse.enterStep := hr.of_eq rfl rfl
  unfold enter at h
  split at h
  · cases h
    exact Course.conclude_calms hr rfl
  · simp only at h
    split at h
    · cases h
      exact Course.conclude_calms hentered rfl
    split at h
    · rename_i htask
      have htaken : s.Calms lane loud _ := Course.takeTask_calms hentered htask
      cases h
      exact And.imp_left htaken.trans (Course.conclude_calms hentered rfl)
    · rename_i task _ htask
      have hactive : Course.RunsIn lane { r.toCourse.enterStep with
          step := some ⟨r.toCourse.enterStep.key id, task, s.log.cursor⟩ } := by
        refine ⟨hr.home, fun step hs => ?_⟩
        cases hs
        exact hr.home
      have htaken : s.Calms lane loud _ := Course.takeTask_calms hentered htask
      cases h
      exact ⟨htaken.trans (Course.subscribe_calms hactive _ _), hactive⟩

theorem applyUpdates_calms {focus : Focus} {task : Option Handle} {updates : List Assignment}
    {result : Except Error Unit} (h : applyUpdates focus task updates s = (result, s')) :
    s.Calms lane loud s' := by
  induction updates generalizing s with
  | nil =>
    cases h
    exact .refl
  | cons a rest ih =>
    simp only [applyUpdates] at h
    split at h
    · rename_i ha
      exact (Stage.assign_calms ha).trans (ih h)
    · rename_i ha
      cases h
      exact Stage.assign_calms ha

theorem takeTransition_calms {state : State} {position : Nat} {t : Transition}
    {step : ActiveStep} (hr : r.RunsIn lane) (hstep : step.key.lane = lane)
    (h : r.takeTransition state position t step s = (p, r', s')) :
    s.Calms lane loud s' ∧ r'.RunsIn lane := by
  have hleft : Course.RunsIn lane { r.toCourse with step := none } := .of_no_step hr.home rfl
  simp only [takeTransition] at h
  split at h
  · rename_i hu
    cases h
    exact And.imp_left (applyUpdates_calms hu).trans (Course.conclude_calms hleft rfl)
  · rename_i hu
    have hnext : Course.RunsIn lane { r.toCourse with
        step := none
        path := r.path ++ [Step.transition state.id t.target position
          (Course.passedFailure step s.log)]
        viaFailure := Course.passedFailure step s.log
        last := if step.task.isSome then some (step.focus r.last) else r.last } :=
      .of_no_step hr.home rfl
    obtain ⟨hm, hr'⟩ := enter_calms hnext h
    have hupdated : s.Calms lane loud _ := applyUpdates_calms hu
    have hretired := hupdated.tail (.retire _ hstep)
    exact ⟨(hretired.tail (.record (.transition state.id t.target) rfl)).trans hm, hr'⟩

theorem tryTransitions_calms {focus : Focus} {transitions : List Transition} {position : Nat}
    {allFalse : Bool} {memo memo' : Memo} {verdict : Verdict}
    (h : tryTransitions focus transitions position allFalse memo s = (verdict, memo', s')) :
    s.Calms lane loud s' := by
  induction transitions generalizing s position allFalse memo with
  | nil =>
    cases h
    exact .refl
  | cons t rest ih =>
    simp only [tryTransitions] at h
    have heval : s.Calms lane loud _ := Stage.evaluate_calms s t.guard focus memo
    split at h
    · cases h
      exact heval
    · exact heval.trans (ih h)
    · exact heval.trans (ih h)

theorem check_calms {state : State} (hr : r.RunsIn lane) (h : r.check state s = (p, r', s')) :
    s.Calms lane loud s' ∧ r'.RunsIn lane := by
  unfold check at h
  split at h
  · cases h
    exact ⟨.refl, hr⟩
  rename_i step hstep
  extract_lets ended at h
  have hmemo : ∀ memo, Course.RunsIn lane { r.toCourse with memo } := fun _ => hr.of_eq rfl rfl
  split at h
  · split at h
    · cases h
      exact Course.conclude_calms hr rfl
    split at h
    · cases h
      exact Course.conclude_calms hr rfl
    split at h
    · cases h
      exact Course.conclude_calms hr rfl
    · cases h
      exact ⟨.refl, hr⟩
  split at h
  · rename_i memo _ htry
    obtain ⟨hm, hr'⟩ := takeTransition_calms (hmemo memo) (hr.step step hstep) h
    exact ⟨(tryTransitions_calms htry).trans hm, hr'⟩
  · rename_i allFalse memo _ htry
    simp only at h
    generalize (if state.transitions.isEmpty = true then ended else allFalse) = stuck at h
    split at h
    · cases h
      exact And.imp_left (tryTransitions_calms htry).trans (Course.conclude_calms (hmemo memo) rfl)
    · cases h
      exact ⟨(tryTransitions_calms htry).trans (Course.subscribe_calms (hmemo memo) _ _),
        hmemo memo⟩

theorem start_calms (hr : r.RunsIn lane) (h : r.start s = .ok (p, r', s')) :
    s.Calms lane loud s' ∧ r'.RunsIn lane := by
  unfold start at h
  split at h
  · cases h
  · have hbegin : Course.RunsIn lane r.toCourse.begin := .of_no_step hr.home rfl
    exact enter_calms hbegin (Except.ok.inj h)

theorem forward_calms {event : Event} {forwards : List Forward} {result : Except Error Unit}
    (h : forward event forwards s = (result, s')) : s.Calms lane true s' := by
  induction forwards generalizing s with
  | nil =>
    cases h
    exact .refl
  | cons f rest ih =>
    simp only [forward] at h
    split at h
    · split at h
      · rename_i he
        exact (Stage.emitOnRoot_calms he).trans (ih h)
      · rename_i he
        cases h
        exact Stage.emitOnRoot_calms he
    · exact ih h

theorem onEvent_calms {event : Event} (hr : r.RunsIn lane)
    (h : r.onEvent event s = (p, r', s')) : s.Calms lane true s' ∧ r'.RunsIn lane := by
  unfold onEvent at h
  split at h
  · cases h
    exact ⟨.refl, hr⟩
  split at h
  · cases h
    exact ⟨.refl, hr⟩
  split at h
  · split at h
    · rename_i hf
      cases h
      exact And.imp_left (forward_calms hf).trans (Course.conclude_calms hr rfl)
    · rename_i hf
      obtain ⟨hm, hr'⟩ := check_calms hr h
      exact ⟨(forward_calms hf).trans hm, hr'⟩
  · exact check_calms hr h

theorem resume_calms (hr : r.RunsIn lane) (h : r.resume s = (p, r', s')) :
    s.Calms lane loud s' ∧ r'.RunsIn lane := by
  unfold resume at h
  split at h
  · cases h
    exact ⟨.refl, hr⟩
  split at h
  · cases h
    exact ⟨.refl, hr⟩
  split at h
  · exact enter_calms hr h
  split at h
  · exact check_calms hr h
  · cases h
    exact Course.conclude_calms hr rfl

end MachineRun

end Conductor
