import Conductor.Engine
import Conductor.Proofs.Engine.Moves
import Conductor.Proofs.Stage.Attention

/-!
The attention of an engine: while it waits in a step, its lane waits for what the guards of the step
depend on. Every way to come to a step or to stay in it ends with a subscription, and an engine that
is not concerned stays as it is.
-/

namespace Conductor

namespace Engine

/-- The guards by which a running engine leaves its step. -/
def guards : Engine → List Guard
  | script r =>
    if r.status = .running then (r.script.instructions[r.pc]?.map Instruction.exitGuard).toList
    else []
  | machine r =>
    if r.status = .running then
      match r.state.bind r.machine.state? with
      | some state => if state.terminal then [] else state.transitions.map Transition.guard
      | none => []
    else []

/-- The lane of an engine waits for what the guards of the active step depend on. -/
def Attends (e : Engine) (s : Stage) : Prop :=
  ∀ step, e.course.step = some step → ∀ g ∈ e.guards,
    s.Awaits e.course.lane g (step.focus e.course.last) (step.task.map Handle.id)

variable {e : Engine} {s s' : Stage}

theorem Attends.of_no_step (h : e.course.step = none) : e.Attends s := by
  intro step hstep
  rw [h] at hstep
  cases hstep

theorem Attends.of_no_guard (h : e.guards = []) : e.Attends s := by
  intro step _ g hg
  rw [h] at hg
  cases hg

/-- An engine that waits for more than its guards depend on waits for that. -/
theorem subscribe_attends {guards : List Guard} (h : e.guards ⊆ guards) (s : Stage) :
    e.Attends (e.course.subscribe guards s) := by
  intro step hstep g hg
  simp only [Course.subscribe, hstep]
  exact Stage.subscribe_awaits s _ _ _ (h hg)

theorem Attends.congr (h : e.Attends s) (hs : s'.scopes = s.scopes) (hr : s'.root = s.root)
    (hi : s'.interests = s.interests) : e.Attends s' := by
  intro step hstep g hg
  exact (h step hstep g hg).congr hs hr hi

end Engine

namespace ScriptRun

variable {r r' : ScriptRun} {s s' : Stage} {p : Progress} {instruction : Instruction}

theorem subscribe_attends (hi : r.script.instructions[r.pc]? = some instruction) (s : Stage) :
    (Engine.script r).Attends (r.subscribe [instruction.exitGuard] s) := by
  refine Engine.subscribe_attends (fun g hg => ?_) s
  simp only [Engine.guards, hi] at hg
  split at hg
  · exact hg
  · cases hg

/-- What stands at the position of a run is the first of the instructions left to it. -/
theorem enterFrom_attends {left : List Instruction}
    (hleft : r.script.instructions.drop r.pc = left) (h : enterFrom left r s = (p, r', s')) :
    (Engine.script r').Attends s' := by
  induction left generalizing r s with
  | nil =>
    cases h
    exact .of_no_step rfl
  | cons instruction rest ih =>
    have hnext : r.script.instructions.drop (r.pc + 1) = rest := by
      rw [← List.drop_drop, hleft]
      rfl
    simp only [enterFrom, skip] at h
    split at h
    · exact ih hnext h
    split at h
    · cases h
      exact .of_no_step rfl
    split at h
    · split at h
      · cases h
        exact .of_no_step rfl
      · rename_i hexit
        obtain ⟨hscript, hpc⟩ := exit_moves_on hexit
        refine ih ?_ h
        rw [hscript, hpc]
        exact hnext
    · cases h
      refine subscribe_attends ?_ _
      have hhead : (r.script.instructions.drop r.pc)[0]? = some instruction := by rw [hleft]; rfl
      rwa [List.getElem?_drop] at hhead

theorem check_attends {event : Option Event} (h : r.check event s = (p, r', s')) :
    (Engine.script r').Attends s' := by
  unfold check at h
  split at h
  · cases h
    exact .of_no_step rfl
  · rename_i hstep
    cases h
    exact .of_no_step hstep
  · rename_i instruction step hi hstep
    simp only at h
    split at h
    · split at h
      · cases h
        exact .of_no_step rfl
      · exact enterFrom_attends rfl h
    · cases h
      exact .of_no_step rfl
    · cases h
      exact subscribe_attends (r := { r with memo := _ }) hi _

theorem start_attends (h : r.start s = .ok (p, r', s')) : (Engine.script r').Attends s' := by
  unfold start at h
  split at h
  · cases h
  split at h
  · cases h
  · exact enterFrom_attends rfl (Except.ok.inj h)

theorem onEvent_attends {event : Event} (ha : (Engine.script r).Attends s)
    (h : r.onEvent event s = (p, r', s')) : (Engine.script r').Attends s' := by
  unfold onEvent at h
  split at h
  · cases h
    exact ha
  · exact check_attends h

theorem resume_attends (h : r.resume s = (p, r', s')) : (Engine.script r').Attends s' := by
  unfold resume at h
  split at h
  · rename_i hr
    cases h
    exact .of_no_guard (if_neg hr)
  split at h
  · exact enterFrom_attends rfl h
  · exact check_attends h

end ScriptRun

namespace MachineRun

variable {r r' : MachineRun} {s s' : Stage} {p : Progress} {state : State}

theorem subscribe_attends (hi : r.state.bind r.machine.state? = some state) (s : Stage) :
    (Engine.machine r).Attends (r.subscribe (guardsOf state) s) := by
  refine Engine.subscribe_attends (fun g hg => ?_) s
  simp only [Engine.guards, hi] at hg
  split at hg
  · split at hg
    · cases hg
    · exact List.mem_append_left _ hg
  · cases hg

theorem enter_attends {id : String} (h : r.enter id s = (p, r', s')) :
    (Engine.machine r').Attends s' := by
  unfold enter at h
  split at h
  · cases h
    exact .of_no_step rfl
  · rename_i state hstate
    simp only at h
    split at h
    · cases h
      exact .of_no_step rfl
    split at h
    · cases h
      exact .of_no_step rfl
    · cases h
      refine subscribe_attends ?_ _
      exact hstate

theorem takeTransition_attends {position : Nat} {t : Transition} {step : ActiveStep}
    (h : r.takeTransition state position t step s = (p, r', s')) :
    (Engine.machine r').Attends s' := by
  simp only [takeTransition] at h
  split at h
  · cases h
    exact .of_no_step rfl
  · exact enter_attends h

theorem check_attends (hstate : r.state.bind r.machine.state? = some state)
    (h : r.check state s = (p, r', s')) : (Engine.machine r').Attends s' := by
  unfold check at h
  split at h
  · rename_i hstep
    cases h
    exact .of_no_step hstep
  extract_lets ended at h
  split at h
  · rename_i hterminal
    have hguards : (Engine.machine r).guards = [] := by
      simp [Engine.guards, hstate, hterminal]
    split at h
    · cases h
      exact .of_no_step rfl
    split at h
    · cases h
      exact .of_no_step rfl
    split at h
    · cases h
      exact .of_no_step rfl
    · cases h
      exact .of_no_guard hguards
  split at h
  · exact takeTransition_attends h
  · simp only at h
    generalize (if state.transitions.isEmpty = true then ended else _) = stuck at h
    split at h
    · cases h
      exact .of_no_step rfl
    · cases h
      exact subscribe_attends (r := { r with memo := _ }) hstate _

theorem start_attends (h : r.start s = .ok (p, r', s')) : (Engine.machine r').Attends s' := by
  unfold start at h
  split at h
  · cases h
  · exact enter_attends (Except.ok.inj h)

theorem onEvent_attends {event : Event} (ha : (Engine.machine r).Attends s)
    (h : r.onEvent event s = (p, r', s')) : (Engine.machine r').Attends s' := by
  unfold onEvent at h
  split at h
  · cases h
    exact ha
  split at h
  · cases h
    exact ha
  · rename_i state hstate
    split at h
    · split at h
      · cases h
        exact .of_no_step rfl
      · exact check_attends hstate h
    · exact check_attends hstate h

theorem resume_attends (h : r.resume s = (p, r', s')) : (Engine.machine r').Attends s' := by
  unfold resume at h
  split at h
  · rename_i hr
    cases h
    exact .of_no_guard (if_neg hr)
  split at h
  · rename_i hstate
    cases h
    refine .of_no_guard ?_
    simp [Engine.guards, hstate]
  split at h
  · exact enter_attends h
  rename_i id hid hkept
  split at h
  · rename_i state hstate
    refine check_attends ?_ h
    rw [hid]
    exact hstate
  · cases h
    exact .of_no_step rfl

end MachineRun

namespace Engine

variable {e e' : Engine} {s s' : Stage} {p : Progress}

theorem start_attends (h : e.start s = .ok (p, e', s')) : e'.Attends s' := by
  cases e with
  | script r =>
    obtain ⟨_, hr, he⟩ := Except.map_eq_ok h
    cases he
    exact ScriptRun.start_attends hr
  | machine r =>
    obtain ⟨_, hr, he⟩ := Except.map_eq_ok h
    cases he
    exact MachineRun.start_attends hr

theorem Attends.onEvent (h : e.Attends s) (event : Event) :
    (e.onEvent event s).2.1.Attends (e.onEvent event s).2.2 := by
  cases e with
  | script r => exact ScriptRun.onEvent_attends h (Eq.refl (r.onEvent event s))
  | machine r => exact MachineRun.onEvent_attends h (Eq.refl (r.onEvent event s))

theorem resume_attends (e : Engine) (s : Stage) : (e.resume s).2.1.Attends (e.resume s).2.2 := by
  cases e with
  | script r => exact ScriptRun.resume_attends (Eq.refl (r.resume s))
  | machine r => exact MachineRun.resume_attends (Eq.refl (r.resume s))

theorem restart_attends (e : Engine) (s : Stage) :
    (e.restart s).2.1.Attends (e.restart s).2.2 := by
  simp only [restart]
  split
  · rename_i hstart
    exact start_attends hstart
  · refine .of_no_step ?_
    simp only [stop, withCourse_course]
    rfl

end Engine

end Conductor
