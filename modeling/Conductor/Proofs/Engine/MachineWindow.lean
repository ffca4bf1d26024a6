import Conductor.Proofs.Engine.CourseWindow
import Conductor.Proofs.Engine.MachineMoves

/-! The windows of the states of a machine. -/

namespace Conductor

namespace MachineRun

variable {lane : Lane} {r r' : MachineRun} {s s' : Stage} {log : Log} {root : TaskId} {n : Nat}
  {p : Progress}

theorem enter_next {id : String} (h : r.enter id s = (p, r', s')) (hlog : s.log = log)
    (hn : n ≤ log.cursor) (hl : ∀ focus, r.last = some focus → focus.since ≤ n) :
    r.toCourse.Next log root n r'.toCourse := by
  have hlt : r.activation < r.toCourse.enterStep.activation := Nat.lt_succ_self _
  have hlast : ∀ focus, r.last = some focus → focus.since ≤ log.cursor :=
    fun focus hf => Nat.le_trans (hl focus hf) hn
  unfold enter at h
  split at h
  · cases h
    exact .stays rfl (.of_no_step hn rfl hl)
  simp only at h
  split at h
  · cases h
    exact .enters hlt (.of_no_step (Nat.le_refl _) rfl hlast)
  split at h
  · cases h
    exact .enters hlt (.of_no_step (Nat.le_refl _) rfl hlast)
  · cases h
    exact .enters hlt (.entered rfl (congrArg Log.cursor hlog) rfl hlast)

/-- Leaving a state with a task makes its window the last one. -/
theorem takeTransition_next {state : State} {position : Nat} {t : Transition} {step : ActiveStep}
    (h : r.takeTransition state position t step s = (p, r', s')) (hlog : s.log = log)
    (hn : n ≤ log.cursor) (hs : step.since ≤ n)
    (hl : ∀ focus, r.last = some focus → focus.since ≤ n) :
    r.toCourse.Next log root n r'.toCourse := by
  simp only [takeTransition] at h
  split at h
  · cases h
    exact .stays rfl (.of_no_step hn rfl hl)
  · rename_i hu
    have hupdated : s.Calms step.key.lane false _ := applyUpdates_calms hu
    have hlog' := (Stage.Calms.log (hupdated.tail (.retire step.key rfl))).trans hlog
    refine (enter_next h hlog' hn fun focus hf => ?_).of_eq rfl
    simp only at hf
    split at hf
    · rename_i htask
      obtain ⟨task, htask⟩ := Option.isSome_iff_exists.mp htask
      cases hf
      simpa [ActiveStep.focus, htask] using hs
    · exact hl focus hf

theorem tryTransitions_shown {focus : Focus} {transitions : List Transition} {position : Nat}
    {allFalse : Bool} {memo memo' : Memo} {verdict : Verdict}
    (h : tryTransitions focus transitions position allFalse memo s = (verdict, memo', s'))
    (hm : memo.Shown s.log s.root focus.since) : memo'.Shown s.log s.root focus.since := by
  induction transitions generalizing s position allFalse memo with
  | nil =>
    cases h
    exact hm
  | cons t rest ih =>
    have hshown := Stage.evaluate_shown t.guard hm
    have hmoves : s.Calms .model false _ := Stage.evaluate_calms s t.guard focus memo
    rw [← hmoves.log, ← hmoves.root] at hshown ⊢
    simp only [tryTransitions] at h
    split at h
    · cases h
      exact hshown
    · exact ih h hshown
    · exact ih h hshown

theorem check_next {state : State} (h : r.check state s = (p, r', s'))
    (hw : r.toCourse.Windowed s.log s.root n) : r.toCourse.Next s.log s.root n r'.toCourse := by
  unfold check at h
  split at h
  · cases h
    exact .stays rfl hw
  rename_i step hstep
  extract_lets ended at h
  have hs : step.since ≤ n := Nat.le_of_eq (hw.since step hstep)
  split at h
  · split at h
    · cases h
      exact .stays rfl (.of_no_step hw.opened rfl hw.last)
    split at h
    · cases h
      exact .stays rfl (.of_no_step hw.opened rfl hw.last)
    split at h
    · cases h
      exact .stays rfl (.of_no_step hw.opened rfl hw.last)
    · cases h
      exact .stays rfl hw
  split at h
  · rename_i memo _ htry
    have hmoves : s.Calms .model false _ := tryTransitions_calms htry
    exact (takeTransition_next h hmoves.log hw.opened hs hw.last).of_eq rfl
  · rename_i allFalse memo _ htry
    have hshown := tryTransitions_shown htry (hw.memo step hstep)
    simp only at h
    generalize (if state.transitions.isEmpty = true then ended else allFalse) = stuck at h
    split at h
    · cases h
      exact .stays rfl (.of_no_step hw.opened rfl hw.last)
    · cases h
      refine .stays rfl ⟨hw.opened, hw.since, hw.last, fun other ho => ?_⟩
      obtain rfl := Option.some.inj (hstep.symm.trans ho)
      exact hshown

theorem start_next (h : r.start s = .ok (p, r', s')) (hn : n ≤ s.log.cursor) :
    r.toCourse.Next s.log s.root n r'.toCourse := by
  unfold start at h
  split at h
  · cases h
  · have hlast : ∀ focus, r.toCourse.begin.last = some focus → focus.since ≤ n := by
      rintro _ ⟨⟩
    exact (enter_next (Except.ok.inj h) rfl hn hlast).of_eq rfl

theorem onEvent_next {event : Event} (h : r.onEvent event s = (p, r', s'))
    (hw : r.toCourse.Windowed s.log s.root n) : r.toCourse.Next s.log s.root n r'.toCourse := by
  unfold onEvent at h
  split at h
  · cases h
    exact .stays rfl hw
  split at h
  · cases h
    exact .stays rfl hw
  split at h
  · split at h
    · cases h
      exact .stays rfl (.of_no_step hw.opened rfl hw.last)
    · rename_i hf
      have hmoves : s.Calms .model true _ := forward_calms hf
      rw [← hmoves.log, ← hmoves.root] at hw ⊢
      exact check_next h hw
  · exact check_next h hw

theorem resume_next (h : r.resume s = (p, r', s')) (hw : r.toCourse.Windowed s.log s.root n) :
    r.toCourse.Next s.log s.root n r'.toCourse := by
  unfold resume at h
  split at h
  · cases h
    exact .stays rfl hw
  split at h
  · cases h
    exact .stays rfl hw
  split at h
  · exact enter_next h rfl hw.opened hw.last
  split at h
  · exact check_next h hw
  · cases h
    exact .stays rfl (.of_no_step hw.opened rfl hw.last)

end MachineRun

end Conductor
