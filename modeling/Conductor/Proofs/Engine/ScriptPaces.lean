import Conductor.Proofs.Engine.Paces
import Conductor.Proofs.Engine.ScriptWindow

/-! A script goes by paces, whatever it is told. -/

namespace Conductor

namespace ScriptRun

variable {lane : Lane} {log : Log} {root : TaskId} {r r' : ScriptRun} {s s' : Stage}
  {p : Progress} {marks : List Mark}

theorem Pace.paces (h : r.Pace log root marks r') : Engine.Paces log root (.script r) (.script r') :=
  (Engine.Pace.script h).paces

theorem finish_goes (h : r.finish s = (p, r', s')) (hr : r.status = .running)
    (hpc : r.script.instructions.length ≤ r.pc) :
    Engine.Goes log root (.script r) p (.script r') := by
  simp only [finish] at h
  cases h
  refine ⟨(Pace.finish hr hpc).paces, ?_⟩
  rintro _ ⟨⟩
  exact ⟨rfl, rfl⟩

theorem exit_leaves {i : Instruction} {event : Option Event}
    (h : r.exit i event s = (.ok (), r', s')) :
    ∃ step, r.step = some step ∧ r' = r.leaving i.label step (Course.passedFailure step s.log) := by
  unfold exit at h
  split at h
  · cases h
  · rename_i step hstep
    simp only at h
    split at h
    · cases h
    · cases h
      exact ⟨step, hstep, rfl⟩

/-- An instruction that cannot be left has lost its step, if it had one. -/
theorem exit_error_run {i : Instruction} {event : Option Event} {e : Error}
    (h : r.exit i event s = (.error e, r', s')) : r' = r ∨ r' = r.vacant := by
  unfold exit at h
  split at h
  · cases h
    exact .inl rfl
  · simp only at h
    split at h
    · cases h
      exact .inr rfl
    · cases h

theorem exit_pace {i : Instruction} {event : Option Event}
    (h : r.exit i event s = (.ok (), r', s')) (hr : r.status = .running)
    (hreplaced : r.replaced = false) (hi : r.script.instructions[r.pc]? = some i)
    (hlog : s.log = log) : r.Pace log root [.left r.pc] r' := by
  subst hlog
  obtain ⟨step, hstep, rfl⟩ := exit_leaves h
  exact .leave hr hstep hreplaced hi

/-- What stands at the exit of an instruction went wrong. -/
theorem exit_error_goes {i : Instruction} {event : Option Event} {e : Error} {r₁ : ScriptRun}
    {s₁ : Stage} (h : r.exit i event s = (.error e, r₁, s₁)) (hf : r₁.fail e s₁ = (p, r', s'))
    (hr : r.status = .running) : Engine.Goes log root (.script r) p (.script r') := by
  obtain rfl | rfl := exit_error_run h
  · cases hf
    exact .fails hr
  · cases hf
    exact .fails (e := .script r) hr

/-- Instructions are entered from a run in no step: what is left of a step that lost its task makes
no difference. -/
theorem enterFrom_goes {rest : List Instruction} (h : enterFrom rest r s = (p, r', s'))
    (hlane : r.RunsIn lane) (hr : r.status = .running)
    (hrest : rest = r.script.instructions.drop r.pc) (hlog : s.log = log) :
    Engine.Goes log root (.script r.vacant) p (.script r') := by
  induction rest generalizing r s with
  | nil => exact finish_goes (r := r.vacant) (s := s) h hr (List.drop_eq_nil_iff.mp hrest.symm)
  | cons i rest ih =>
    obtain ⟨hi, hnext⟩ := of_cons_eq_drop hrest
    have hentered : Course.RunsIn lane r.toCourse.enterStep := hlane.of_eq rfl rfl
    have hprepare : Engine.Paces log root (.script r.vacant) (.script r.vacant.entering) :=
      (Pace.prepare (r := r.vacant) hr rfl).paces
    simp only [enterFrom, skip] at h
    split at h
    · rename_i hmay
      have hm : s.Calms lane true _ := mayEnter_calms hmay
      have hskip : r.vacant.entering.Pace log root [.skipped r.pc] _ :=
        Pace.skip (r := r.vacant.entering) hr rfl hi
      refine (ih h ?_ hr hnext (hm.log.trans hlog)).after (hprepare.trans hskip.paces)
      exact hlane.of_eq rfl rfl
    · rename_i hmay
      have hbefore : s.Calms lane true _ := mayEnter_calms hmay
      split at h
      · cases h
        exact (Engine.Goes.fails (e := .script r.vacant.entering) hr).after hprepare
      · rename_i task _ htask
        have htaken := hbefore.trans (Course.takeTask_calms hentered htask)
        have hlog' := (Stage.Calms.log htaken).trans hlog
        have hactive : Course.RunsIn lane { r.toCourse.enterStep with
            step := some ⟨r.toCourse.enterStep.key i.label, task, log.cursor⟩ } := by
          refine ⟨hlane.home, fun step hs => ?_⟩
          cases hs
          exact hlane.home
        have henter : r.vacant.entering.Pace log root [.entered r.pc (task.map Handle.id)] _ :=
          Pace.enter (r := r.vacant.entering) hr rfl rfl hi (Course.takeTask_isSome htask)
        have hin := hprepare.trans henter.paces
        rw [hlog] at h
        split at h
        · split at h
          · rename_i hexit
            exact (exit_error_goes hexit h hr).after hin
          · rename_i hexit
            obtain ⟨hm, hlane'⟩ := exit_reports hactive hexit
            have hleave : ScriptRun.Pace log root _ _ _ := exit_pace hexit hr rfl hi hlog'
            cases hleave with
            | leave hr' hstep hreplaced hi' =>
              have hleft : Engine.Paces log root (.script r.vacant) _ :=
                hin.trans (Pace.leave hr' hstep hreplaced hi').paces
              exact (ih h hlane' hr hnext (hm.calms.log.trans hlog')).after hleft
        · cases h
          exact .of_paces hin fun _ => Progress.noConfusion

theorem check_goes {event : Option Event} (h : r.check event s = (p, r', s'))
    (hlane : r.RunsIn lane) (hr : r.status = .running) (hreplaced : r.replaced = false) :
    Engine.Goes s.log s.root (.script r) p (.script r') := by
  unfold check at h
  split at h
  · rename_i hi
    exact finish_goes h hr (List.getElem?_eq_none_iff.mp hi)
  · cases h
    exact .stays ..
  · rename_i i step hi hstep
    have heval : s.Calms lane true _ := Stage.evaluate_calms s i.exitGuard (step.focus r.last) r.memo
    have hweigh : Engine.Paces s.log s.root (.script r) (.script { r with
        memo := (s.evaluate i.exitGuard (step.focus r.last) r.memo).2.1 }) :=
      (Pace.course (Course.evaluate_pace hstep hreplaced i.exitGuard s)).paces
    have hmemo : Course.RunsIn lane { r.toCourse with
        memo := (s.evaluate i.exitGuard (step.focus r.last) r.memo).2.1 } :=
      hlane.of_eq rfl rfl
    simp only at h
    split at h
    · split at h
      · rename_i hexit
        exact (exit_error_goes hexit h hr).after hweigh
      · rename_i hexit
        obtain ⟨hm, hlane'⟩ := exit_reports hmemo hexit
        have hleave : ScriptRun.Pace s.log s.root _ _ _ :=
          exit_pace hexit hr hreplaced hi heval.log
        cases hleave with
        | leave hr' hstep' hreplaced' hi' =>
          have hleft := hweigh.trans (Pace.leave hr' hstep' hreplaced' hi').paces
          exact (enterFrom_goes h hlane' hr rfl (hm.log.trans heval.log)).after hleft
    · cases h
      refine Engine.Goes.after ?_ hweigh
      exact .fails hr
    · cases h
      exact .of_paces hweigh fun _ => Progress.noConfusion

theorem start_goes (h : r.start s = .ok (p, r', s')) (hlane : r.RunsIn lane) :
    Engine.Goes s.log root (.script r) p (.script r') := by
  unfold start at h
  split at h
  · cases h
  rename_i hr
  split at h
  · cases h
  · have hbegin : Course.RunsIn lane r.toCourse.begin := .of_no_step hlane.home rfl
    exact (enterFrom_goes (Except.ok.inj h) hbegin rfl rfl rfl).after (Pace.begin hr).paces

theorem onEvent_goes {event : Event} (h : r.onEvent event s = (p, r', s'))
    (hlane : r.RunsIn lane) : Engine.Goes s.log s.root (.script r) p (.script r') := by
  unfold onEvent at h
  split at h
  · cases h
    exact .stays ..
  · rename_i hactive
    obtain ⟨hr, -, hreplaced⟩ : r.status = .running ∧ ¬ r.step = none ∧ r.replaced = false := by
      simpa [and_assoc] using hactive
    exact check_goes h hlane hr hreplaced

theorem resume_goes (h : r.resume s = (p, r', s')) (hlane : r.RunsIn lane) :
    Engine.Goes s.log s.root (.script r) p (.script r') := by
  unfold resume at h
  split at h
  · cases h
    exact .stays ..
  rename_i hr
  replace hr := Decidable.not_not.mp hr
  split at h
  · rename_i hlost
    exact (enterFrom_goes h hlane hr rfl rfl).after (Pace.vacate (by simpa using hlost)).paces
  · rename_i hactive
    obtain ⟨hreplaced, -⟩ : r.replaced = false ∧ ¬ r.step = none := by simpa using hactive
    exact check_goes h hlane hr hreplaced

end ScriptRun

end Conductor
