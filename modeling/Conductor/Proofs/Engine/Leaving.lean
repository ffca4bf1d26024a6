import Conductor.Proofs.Engine.Onward
import Conductor.Proofs.Stage.Kept
import Conductor.Proofs.Stage.Outputs

/-!
Leaving an instruction. Once its exit guard holds, an instruction is left, whether an event is at
hand or its script goes on after a fault. What it puts out is what the event carries, so without an
event it puts out nothing.
-/

namespace Conductor

namespace ScriptRun

variable {r r' : ScriptRun} {s s' : Stage} {i : Instruction} {step : ActiveStep} {t : Handle}
  {event : Option Event} {lane : Lane} {p : Progress}

/-- A running script waits in an instruction with a task of its own, which was not taken away. -/
structure Waits (r : ScriptRun) (i : Instruction) (step : ActiveStep) (t : Handle) : Prop where
  running : r.status = .running
  entered : r.script.instructions[r.pc]? = some i
  active : r.step = some step
  own : step.task = some t
  kept : r.replaced = false

/-- The exit guard holds on a stage. -/
def Passes (r : ScriptRun) (i : Instruction) (step : ActiveStep) (s : Stage) : Prop :=
  (s.evaluate i.exitGuard (step.focus r.last) r.memo).1 = .yes

/-- The run once the exit guard was evaluated. -/
def looked (r : ScriptRun) (i : Instruction) (step : ActiveStep) (s : Stage) : ScriptRun :=
  { r with memo := (s.evaluate i.exitGuard (step.focus r.last) r.memo).2.1 }

/-- Leaving the instruction, once its exit guard was evaluated. -/
def leave (r : ScriptRun) (i : Instruction) (step : ActiveStep) (event : Option Event)
    (s : Stage) : Except Error Unit × ScriptRun × Stage :=
  (r.looked i step s).exit i event (s.evaluate i.exitGuard (step.focus r.last) r.memo).2.2

/-- The record of an instruction that was left. -/
def mark (r : ScriptRun) (i : Instruction) (step : ActiveStep) (s : Stage) : Step :=
  .advanced r.pc i.label (step.task.map Handle.id) (Course.passedFailure step s.log)

theorem check_passes (hw : r.Waits i step t) (hp : r.Passes i step s) :
    r.check event s = match r.leave i step event s with
      | (.error e, r, s) => r.fail e s
      | (.ok (), r, s) => r.enter s := by
  unfold check
  split
  · rename_i h
    cases hw.entered.symm.trans h
  · rename_i _ h
    cases hw.active.symm.trans h
  · rename_i i' step' hi hs
    cases hw.entered.symm.trans hi
    cases hw.active.symm.trans hs
    have hyes : (s.evaluate i.exitGuard (step.focus r.last) r.memo).1 = .yes := hp
    simp only [hyes]
    rfl

theorem exit_outputs {result : Except Error Unit} (hs : r.step = some step)
    (h : r.exit i event s = (result, r', s')) :
    s'.scopes.outputs = (r.recordOutput i.label step event s).scopes.outputs := by
  unfold exit at h
  rw [hs] at h
  simp only at h
  split at h
  · rename_i ha
    cases h
    have hacted : Stage.Calms r.lane true _ s' := exitActions_calms ha
    exact hacted.outputs
  · rename_i t ha
    have hacted : Stage.Calms r.lane true _ t := exitActions_calms ha
    cases h
    exact (congrArg Scopes.outputs (Stage.retire_scopes ..)).trans hacted.outputs

theorem exit_path (hs : r.step = some step) (h : r.exit i event s = (.ok (), r', s')) :
    r'.path = r.path ++ [r.mark i step s] := by
  unfold exit at h
  rw [hs] at h
  simp only at h
  split at h
  · cases h
  · cases h
    rfl

theorem evaluate_calm (r : ScriptRun) (i : Instruction) (step : ActiveStep) (s : Stage) :
    s.Calms r.lane false (s.evaluate i.exitGuard (step.focus r.last) r.memo).2.2 :=
  Stage.evaluate_calms ..

/-- What an event of the instruction's own task carries is put out under its label. -/
theorem leave_output {e : Event} {v : Value} (hw : r.Waits i step t) (he : e.task = t.id)
    (hv : e.payload = some v) (hd : r.depth < s.scopes.depth) :
    (r.leave i step (some e) s).2.2.scopes.outputAt? r.depth i.label = some v := by
  have hcalm := evaluate_calm r i step s
  have hexit : (r.leave i step (some e) s).2.2.scopes.outputs = _ :=
    exit_outputs (r := r.looked i step s) hw.active rfl
  rw [Scopes.outputAt?_congr (congrArg (·[r.depth]?) hexit)]
  simp only [recordOutput, hw.own, hv, he, if_true]
  refine Scopes.outputAt?_recordOutput _ ?_ ..
  rw [hcalm.moves.depth]
  exact hd

theorem leave_path (hs : r.step = some step) (h : r.leave i step event s = (.ok (), r', s')) :
    r'.path = r.path ++ [r.mark i step s] := by
  have hlog := (Stage.Kept.moves (evaluate_calm r i step s).moves).log
  rw [exit_path (r := r.looked i step s) hs h, mark, mark, hlog]
  rfl

/-- Once its exit guard holds, an instruction is left, whatever comes next. -/
theorem check_leaves (hr : r.RunsIn lane) (hw : r.Waits i step t) (hp : r.Passes i step s)
    (h : r.check event s = (p, r', s')) :
    s'.scopes.outputs = (r.leave i step event s).2.2.scopes.outputs ∧
      ((r.leave i step event s).1 = .ok () → r.path ++ [r.mark i step s] <+: r'.path) := by
  rw [check_passes hw hp] at h
  cases hl : r.leave i step event s with
  | mk result rest =>
    obtain ⟨r₁, s₁⟩ := rest
    rw [hl] at h
    have hlooked : Course.RunsIn lane (r.looked i step s).toCourse := hr.of_eq rfl rfl
    obtain ⟨_, hr₁⟩ := exit_reports hlooked hl
    cases result with
    | error e =>
      cases h
      obtain ⟨hcalm, -⟩ : s₁.Calms lane true (r₁.fail e s₁).2.2 ∧ (r₁.fail e s₁).2.1.RunsIn lane :=
        Course.conclude_calms hr₁ rfl
      exact ⟨hcalm.outputs, fun hok => nomatch hok⟩
    | ok _ =>
      refine ⟨(enter_calms hr₁ h).1.outputs, fun _ => ?_⟩
      rw [← leave_path hw.active hl]
      exact (enterFrom_onward h).path

theorem onEvent_waits (hw : r.Waits i step t) (e : Event) (s : Stage) :
    r.onEvent e s = r.check (some e) s := by
  unfold onEvent
  simp [hw.running, hw.active, hw.kept]

theorem resume_waits (hw : r.Waits i step t) (s : Stage) : r.resume s = r.check none s := by
  unfold resume
  simp [hw.running, hw.active, hw.kept]

end ScriptRun

end Conductor
