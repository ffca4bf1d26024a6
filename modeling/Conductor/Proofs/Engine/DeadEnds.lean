import Conductor.Proofs.Engine.Attention
import Conductor.Proofs.Engine.Errors
import Conductor.Proofs.Engine.MachineChoices
import Conductor.Proofs.Engine.Histories
import Conductor.Proofs.Stage.Verdict

/-!
Dead ends. An engine that reports one waits in a step, and every guard by which it could leave the step
is false. Nothing else that goes wrong is reported so: entering a step or leaving it can only end in a
mishap.
-/

namespace Conductor

theorem Error.not_dead_end {e : Error} (h : e.isMishap = true) : ¬ e.isDeadEnd = true := by
  obtain ⟨-, hdead⟩ := Bool.and_eq_true_iff.mp h
  simpa using hdead

theorem Progress.Mishap.not_dead_end {α : Type} {x : Progress × α} (h : x.1.Mishap)
    {error : Error} {a : α} (hx : x = (.failed error, a)) : ¬ error.isDeadEnd = true := by
  rw [hx] at h
  exact Error.not_dead_end h

/-- A running engine waits in a step, and every guard by which it could leave the step is false. -/
structure Engine.Barred (e : Engine) (s : Stage) (memo : Memo) (step : ActiveStep) : Prop where
  running : e.isRunning = true
  active : e.course.step = some step
  no : ∀ g ∈ e.guards, (s.evaluate g (step.focus e.course.last) memo).1 = .no

namespace ScriptRun

variable {r r' : ScriptRun} {s s' : Stage} {error : Error}

theorem check_barred {event : Option Event} (hr : r.status = .running)
    (h : r.check event s = (.failed error, r', s')) (hdead : error.isDeadEnd = true) :
    ∃ step, (Engine.script r).Barred s r'.memo step := by
  unfold check at h
  split at h
  · cases h
  · cases h
  · rename_i instruction step hinstruction hstep
    simp only at h
    split at h
    · split at h
      · rename_i hexit
        have herror := (exit_mishap _ _ _ _).error (congrArg Prod.fst hexit)
        cases h
        exact absurd hdead (Error.not_dead_end herror)
      · exact absurd hdead ((enterFrom_mishap ..).not_dead_end h)
    · rename_i hno
      refine ⟨step, beq_iff_eq.mpr hr, hstep, fun g hg => ?_⟩
      simp only [Engine.guards, hr, hinstruction, if_true] at hg
      obtain rfl := List.mem_singleton.mp hg
      cases h
      rw [Stage.evaluate_eq_weigh] at hno
      refine (s.evaluate_eq_weigh ..).trans (Eq.trans ?_ hno)
      exact congrArg (Guard.weigh · _) (s.verdict_learned ..)
    · cases h

theorem onEvent_barred {event : Event} (h : r.onEvent event s = (.failed error, r', s'))
    (hdead : error.isDeadEnd = true) : ∃ step, (Engine.script r).Barred s r'.memo step := by
  unfold onEvent at h
  split at h
  · cases h
  · rename_i hr
    have hrunning : r.status = .running := by
      simp at hr
      exact hr.1.1
    exact check_barred hrunning h hdead

theorem resume_barred (h : r.resume s = (.failed error, r', s'))
    (hdead : error.isDeadEnd = true) : ∃ step, (Engine.script r).Barred s r'.memo step := by
  unfold resume at h
  split at h
  · cases h
  · rename_i hr
    split at h
    · exact absurd hdead ((enterFrom_mishap ..).not_dead_end h)
    · exact check_barred (by simpa using hr) h hdead

end ScriptRun

namespace MachineRun

variable {r r' : MachineRun} {s s' : Stage} {error : Error}

/-- The stage is the one before anything was forwarded. -/
theorem check_barred {state : State} {s₁ : Stage} (hr : r.status = .running)
    (hstate : r.state.bind r.machine.state? = some state) (hs : s.Agrees s₁)
    (h : r.check state s₁ = (.failed error, r', s')) (hdead : error.isDeadEnd = true) :
    ∃ step, (Engine.machine r).Barred s r'.memo step := by
  unfold check at h
  split at h
  · cases h
  · rename_i step hstep
    refine ⟨step, beq_iff_eq.mpr hr, hstep, fun g hg => ?_⟩
    simp only [Engine.guards, hr, hstate, if_true] at hg
    split at hg
    · cases hg
    obtain ⟨t, ht, rfl⟩ := List.mem_map.mp hg
    simp only at h
    split at h
    · contradiction
    split at h
    · exact absurd hdead ((takeTransition_mishap ..).not_dead_end h)
    · rename_i allFalse memo s₂ htried
      have hsome : ¬ state.transitions.isEmpty = true := by
        simpa using List.ne_nil_of_mem ht
      rw [if_neg hsome] at h
      split at h
      · rename_i hstuck
        obtain rfl : allFalse = true := hstuck
        have htried := tryTransitions_tried htried
        obtain ⟨-, hno⟩ := htried.fits.2.mp rfl
        rw [← htried.learned, hs.verdict] at hno
        cases h
        exact (s.evaluate_eq_weigh ..).trans (hno t ht)
      · cases h

theorem forward_agrees {event : Event} {forwards : List Forward}
    (h : forward event forwards s = (.ok (), s')) : s.Agrees s' := by
  induction forwards generalizing s with
  | nil =>
    cases h
    exact .refl _
  | cons f rest ih =>
    simp only [forward] at h
    split at h
    · split at h
      · rename_i hemit
        exact (Stage.Agrees.emitOnRoot hemit).trans (ih h)
      · cases h
    · exact ih h

theorem onEvent_barred {event : Event} (h : r.onEvent event s = (.failed error, r', s'))
    (hdead : error.isDeadEnd = true) : ∃ step, (Engine.machine r).Barred s r'.memo step := by
  unfold onEvent at h
  split at h
  · cases h
  · rename_i hr
    have hrunning : r.status = .running := by
      simp at hr
      exact hr.1
    split at h
    · cases h
    · rename_i hstate
      split at h
      · split at h
        · rename_i hforward
          have herror := (forward_mishap ..).error (congrArg Prod.fst hforward)
          cases h
          exact absurd hdead (Error.not_dead_end herror)
        · rename_i hforward
          exact check_barred hrunning hstate (forward_agrees hforward) h hdead
      · exact check_barred hrunning hstate (.refl s) h hdead

theorem resume_barred (h : r.resume s = (.failed error, r', s'))
    (hdead : error.isDeadEnd = true) : ∃ step, (Engine.machine r).Barred s r'.memo step := by
  unfold resume at h
  split at h
  · cases h
  · rename_i hr
    split at h
    · cases h
    · rename_i id hid
      split at h
      · exact absurd hdead ((enter_mishap ..).not_dead_end h)
      split at h
      · rename_i hstate
        exact check_barred (by simpa using hr) (by rw [hid]; exact hstate) (.refl s) h hdead
      · cases h
        cases hdead

end MachineRun

namespace Engine

variable {e e' : Engine} {s s' : Stage} {error : Error}

theorem onEvent_barred {event : Event} (h : (e.onEvent event s).1 = .failed error)
    (hdead : error.isDeadEnd = true) :
    ∃ step, e.Barred s (e.onEvent event s).2.1.course.memo step := by
  cases e with
  | script r =>
    have hr : r.onEvent event s = (.failed error, (r.onEvent event s).2) := Prod.ext h rfl
    exact ScriptRun.onEvent_barred hr hdead
  | machine r =>
    have hr : r.onEvent event s = (.failed error, (r.onEvent event s).2) := Prod.ext h rfl
    exact MachineRun.onEvent_barred hr hdead

theorem resume_barred (h : (e.resume s).1 = .failed error) (hdead : error.isDeadEnd = true) :
    ∃ step, e.Barred s (e.resume s).2.1.course.memo step := by
  cases e with
  | script r =>
    have hr : r.resume s = (.failed error, (r.resume s).2) := Prod.ext h rfl
    exact ScriptRun.resume_barred hr hdead
  | machine r =>
    have hr : r.resume s = (.failed error, (r.resume s).2) := Prod.ext h rfl
    exact MachineRun.resume_barred hr hdead

/-- An engine that reports a dead end is in one, by all that it had decided by then. -/
theorem Answers.barred (h : e.Answers s (.failed error) e' s') (hdead : error.isDeadEnd = true) :
    ∃ step, e.Barred s e'.course.memo step := by
  generalize hp : Progress.failed error = p at h
  cases h with
  | start hs =>
    cases hp
    exact absurd hdead ((start_mishap hs).not_dead_end (x := (_, e', s')) rfl)
  | onEvent event => exact onEvent_barred hp.symm hdead
  | resume => exact resume_barred hp.symm hdead
  | restart => exact absurd hdead ((e.restart_mishap s).not_dead_end (Prod.ext hp.symm rfl))

end Engine

end Conductor
