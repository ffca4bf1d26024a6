import Conductor.Engine
import Conductor.Proofs.Stage.Fittings

/-!
Runs and the fittings of their stage. Only what takes a task or gives one up looks at the fittings and
changes them; the other things that a run does come to the same whatever they are.
-/

namespace Conductor

/-! ## Courses -/

namespace Course

theorem subscribe_fitted (c : Course) (guards : List Guard) (s : Stage) (f : Fittings) :
    c.subscribe guards (s.fitted f) = (c.subscribe guards s).fitted f := by
  unfold subscribe
  cases c.step with
  | none => rfl
  | some step => exact Stage.subscribe_fitted ..

theorem subscribe_fittings (c : Course) (guards : List Guard) (s : Stage) :
    (c.subscribe guards s).fittings = s.fittings := by
  unfold subscribe
  cases c.step with
  | none => rfl
  | some step => exact s.subscribe_fittings ..

end Course

/-! ## Scripts -/

namespace ScriptRun

theorem exitActions_fitted (focus : Focus) (task : Option Handle) (actions : List ExitAction)
    (s : Stage) (f : Fittings) : exitActions focus task actions (s.fitted f) =
      ((exitActions focus task actions s).1, (exitActions focus task actions s).2.fitted f) := by
  induction actions generalizing s with
  | nil => rfl
  | cons action rest ih =>
    cases action with
    | assign a =>
      simp only [exitActions, Stage.assign_fitted]
      cases hr : s.assign a focus task with
      | mk result t =>
        cases result with
        | ok _ => exact ih t
        | error e => rfl
    | emit event =>
      simp only [exitActions, Stage.emitOnRoot_fitted]
      cases hr : s.emitOnRoot event none with
      | mk result t =>
        cases result with
        | ok _ => exact ih t
        | error e => rfl

theorem exitActions_fittings (focus : Focus) (task : Option Handle) (actions : List ExitAction)
    (s : Stage) : (exitActions focus task actions s).2.fittings = s.fittings :=
  congrArg (fun r : Except Error Unit × Stage => r.2.fittings)
    (exitActions_fitted focus task actions s s.fittings)

theorem recordOutput_fittings (r : ScriptRun) (label : String) (step : ActiveStep)
    (event : Option Event) (s : Stage) :
    (r.recordOutput label step event s).fittings = s.fittings := by
  unfold recordOutput
  split
  · split
    · split <;> rfl
    · rfl
  · rfl

theorem mayEnter_fitted (r : ScriptRun) (i : Instruction) (s : Stage) (f : Fittings) :
    r.mayEnter i (s.fitted f) = ((r.mayEnter i s).1, (r.mayEnter i s).2.fitted f) := by
  unfold mayEnter
  cases i.entryGuard with
  | none => rfl
  | some guard =>
    simp only [Stage.fitted_log, Stage.evaluate_fitted]

theorem mayEnter_fittings (r : ScriptRun) (i : Instruction) (s : Stage) :
    (r.mayEnter i s).2.fittings = s.fittings :=
  congrArg (fun result : Bool × Stage => result.2.fittings) (r.mayEnter_fitted i s s.fittings)

end ScriptRun

/-! ## Machines -/

namespace MachineRun

theorem applyUpdates_fittings (focus : Focus) (task : Option Handle) (updates : List Assignment)
    (s : Stage) : (applyUpdates focus task updates s).2.fittings = s.fittings := by
  induction updates generalizing s with
  | nil => rfl
  | cons a rest ih =>
    have hassign := s.assign_fittings a focus task
    simp only [applyUpdates]
    split
    · rename_i t ht
      rw [ht] at hassign
      exact (ih t).trans hassign
    · rename_i ht
      rw [ht] at hassign
      exact hassign

theorem tryTransitions_fittings (focus : Focus) (transitions : List Transition) (position : Nat)
    (allFalse : Bool) (memo : Memo) (s : Stage) :
    (tryTransitions focus transitions position allFalse memo s).2.2.fittings = s.fittings := by
  induction transitions generalizing position allFalse memo s with
  | nil => rfl
  | cons t rest ih =>
    have heval := s.evaluate_fittings t.guard focus memo
    simp only [tryTransitions]
    split
    · exact heval
    · exact (ih ..).trans heval
    · exact (ih ..).trans heval

theorem forward_fittings (event : Event) (forwards : List Forward) (s : Stage) :
    (forward event forwards s).2.fittings = s.fittings := by
  induction forwards generalizing s with
  | nil => rfl
  | cons f rest ih =>
    have hemit := s.emitOnRoot_fittings f.emitted event.payload
    simp only [forward]
    split
    · split
      · rename_i t ht
        rw [ht] at hemit
        exact (ih t).trans hemit
      · rename_i ht
        rw [ht] at hemit
        exact hemit
    · exact ih s

end MachineRun

end Conductor
