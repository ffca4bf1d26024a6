import Conductor.Proofs.Engine.CourseWindow
import Conductor.Proofs.Engine.ScriptMoves

/-! The windows of the instructions of a script. -/

namespace Conductor

namespace ScriptRun

variable {lane : Lane} {r r' : ScriptRun} {s s' : Stage} {log : Log} {root : TaskId} {n : Nat}
  {p : Progress}

/-- Leaving an instruction with a task makes its window the last one. -/
theorem exit_last {instruction : Instruction} {event : Option Event} {result : Except Error Unit}
    (h : r.exit instruction event s = (result, r', s'))
    (hs : ∀ step, r.step = some step → step.since ≤ n)
    (hl : ∀ focus, r.last = some focus → focus.since ≤ n) :
    r'.activation = r.activation ∧ ∀ focus, r'.last = some focus → focus.since ≤ n := by
  unfold exit at h
  split at h
  · cases h
    exact ⟨rfl, hl⟩
  · rename_i step hstep
    simp only at h
    split at h
    · cases h
      exact ⟨rfl, hl⟩
    · cases h
      refine ⟨rfl, fun focus hf => ?_⟩
      simp only at hf
      split at hf
      · rename_i htask
        obtain ⟨task, htask⟩ := Option.isSome_iff_exists.mp htask
        cases hf
        simpa [ActiveStep.focus, htask] using hs step hstep
      · exact hl focus hf

theorem enterFrom_next {rest : List Instruction} (h : enterFrom rest r s = (p, r', s'))
    (hr : r.RunsIn lane) (hlog : s.log = log) (hn : n ≤ log.cursor)
    (hl : ∀ focus, r.last = some focus → focus.since ≤ n) :
    r.toCourse.Next log root n r'.toCourse := by
  induction rest generalizing r s n with
  | nil =>
    cases h
    exact .stays rfl (.of_no_step hn rfl hl)
  | cons instruction rest ih =>
    have hlt : r.activation < r.toCourse.enterStep.activation := Nat.lt_succ_self _
    have hlast : ∀ focus, r.last = some focus → focus.since ≤ log.cursor :=
      fun focus hf => Nat.le_trans (hl focus hf) hn
    have hentered : Course.RunsIn lane r.toCourse.enterStep := hr.of_eq rfl rfl
    simp only [enterFrom, skip] at h
    split at h
    · rename_i hmay
      have hskipped : ∀ path, Course.RunsIn lane { r.toCourse.enterStep with path } :=
        fun _ => hr.of_eq rfl rfl
      have hm : s.Calms lane true _ := mayEnter_calms hmay
      have hnext := ih h (hskipped _) (hm.log.trans hlog) (Nat.le_refl _) hlast
      exact (hnext.of_eq rfl).after_entry hlt
    · rename_i hmay
      have hbefore : s.Calms lane true _ := mayEnter_calms hmay
      split at h
      · cases h
        exact .enters hlt (.of_no_step (Nat.le_refl _) rfl hlast)
      · rename_i task _ htask
        have htaken := Stage.Calms.log (hbefore.trans (Course.takeTask_calms hentered htask))
        have hactive : Course.RunsIn lane { r.toCourse.enterStep with
            step := some ⟨r.toCourse.enterStep.key instruction.label, task, s.log.cursor⟩ } := by
          refine ⟨hr.home, fun step hs => ?_⟩
          cases hs
          exact hr.home
        split at h
        · have hs : ∀ step, some (⟨r.toCourse.enterStep.key instruction.label, task, s.log.cursor⟩ :
              ActiveStep) = some step → step.since ≤ log.cursor := by
            rintro _ ⟨⟩
            exact Nat.le_of_eq (congrArg Log.cursor hlog)
          split at h
          · rename_i hexit
            obtain ⟨ha, hlast'⟩ := exit_last hexit hs hlast
            cases h
            exact .enters (Nat.lt_of_lt_of_eq hlt ha.symm) (.of_no_step (Nat.le_refl _) rfl hlast')
          · rename_i hexit
            obtain ⟨ha, hlast'⟩ := exit_last hexit hs hlast
            obtain ⟨hm, hr₁⟩ := exit_reports hactive hexit
            have hlog' := hm.calms.log.trans (htaken.trans hlog)
            exact ((ih h hr₁ hlog' (Nat.le_refl _) hlast').of_eq ha).after_entry hlt
        · cases h
          exact .enters hlt (.entered rfl (congrArg Log.cursor hlog) rfl hlast)

theorem check_next {event : Option Event} (h : r.check event s = (p, r', s'))
    (hr : r.RunsIn lane) (hw : r.toCourse.Windowed s.log s.root n) :
    r.toCourse.Next s.log s.root n r'.toCourse := by
  unfold check at h
  split at h
  · cases h
    exact .stays rfl (.of_no_step hw.opened rfl hw.last)
  · cases h
    exact .stays rfl hw
  · simp only at h
    rename_i instruction step _ hstep
    have heval : s.Calms lane true _ := Stage.evaluate_calms s instruction.exitGuard
      (step.focus r.last) r.memo
    have hmemo : Course.RunsIn lane { r.toCourse with
        memo := (s.evaluate instruction.exitGuard (step.focus r.last) r.memo).2.1 } :=
      hr.of_eq rfl rfl
    have hs : ∀ step, r.step = some step → step.since ≤ n :=
      fun step h => Nat.le_of_eq (hw.since step h)
    split at h
    · split at h
      · rename_i hexit
        obtain ⟨ha, hlast⟩ := exit_last hexit hs hw.last
        cases h
        exact .stays ha (.of_no_step hw.opened rfl hlast)
      · rename_i hexit
        obtain ⟨ha, hlast⟩ := exit_last hexit hs hw.last
        obtain ⟨hm, hr₁⟩ := exit_reports hmemo hexit
        have hlog := (Stage.Reports.before heval hm).log
        exact (enterFrom_next h hr₁ hlog hw.opened hlast).of_eq ha
    · cases h
      exact .stays rfl (.of_no_step hw.opened rfl hw.last)
    · cases h
      refine .stays rfl ⟨hw.opened, hw.since, hw.last, fun other ho => ?_⟩
      obtain rfl := Option.some.inj (hstep.symm.trans ho)
      exact Stage.evaluate_shown _ (hw.memo step hstep)

theorem start_next (h : r.start s = .ok (p, r', s')) (hr : r.RunsIn lane)
    (hn : n ≤ s.log.cursor) : r.toCourse.Next s.log s.root n r'.toCourse := by
  unfold start at h
  split at h
  · cases h
  split at h
  · cases h
  · have hbegin : Course.RunsIn lane r.toCourse.begin := .of_no_step hr.home rfl
    have hlast : ∀ focus, r.toCourse.begin.last = some focus → focus.since ≤ n := by
      rintro _ ⟨⟩
    exact (enterFrom_next (Except.ok.inj h) hbegin rfl hn hlast).of_eq rfl

theorem onEvent_next {event : Event} (h : r.onEvent event s = (p, r', s'))
    (hr : r.RunsIn lane) (hw : r.toCourse.Windowed s.log s.root n) :
    r.toCourse.Next s.log s.root n r'.toCourse := by
  unfold onEvent at h
  split at h
  · cases h
    exact .stays rfl hw
  · exact check_next h hr hw

theorem resume_next (h : r.resume s = (p, r', s')) (hr : r.RunsIn lane)
    (hw : r.toCourse.Windowed s.log s.root n) : r.toCourse.Next s.log s.root n r'.toCourse := by
  unfold resume at h
  split at h
  · cases h
    exact .stays rfl hw
  split at h
  · exact enterFrom_next h hr rfl hw.opened hw.last
  · exact check_next h hr hw

end ScriptRun

end Conductor
