import Conductor.Engine
import Conductor.Proofs.Engine.MachineMoves
import Conductor.Proofs.Engine.ScriptMoves

/-! The acts of an engine, each of which is a chain of moves of the engine's lane. -/

namespace Conductor

namespace Engine

/-- What a session has an engine do. -/
inductive Act (e : Engine) (s : Stage) : Engine → Stage → Prop where
  | start {p : Progress} {e' : Engine} {s' : Stage} : e.start s = .ok (p, e', s') → Act e s e' s'
  | onEvent (event : Event) : Act e s (e.onEvent event s).2.1 (e.onEvent event s).2.2
  | resume : Act e s (e.resume s).2.1 (e.resume s).2.2
  | restart : Act e s (e.restart s).2.1 (e.restart s).2.2
  | retireCurrent : Act e s (e.retireCurrent s).1 (e.retireCurrent s).2
  | stop : Act e s (e.stop s).1 (e.stop s).2

variable {lane : Lane} {e e' : Engine} {s s' : Stage} {p : Progress}

def RunsIn (lane : Lane) (e : Engine) : Prop := e.course.RunsIn lane

theorem new_runsIn (model : Model) (lane : Lane) (depth : Nat) :
    (Engine.new model lane depth).RunsIn lane := by
  cases model with
  | script _ => exact Course.idle_runsIn lane depth
  | machine _ => exact Course.idle_runsIn lane depth

@[simp] theorem withCourse_course (e : Engine) (c : Course) : (e.withCourse c).course = c := by
  cases e <;> rfl

theorem withCourse_runsIn {c : Course} (h : c.RunsIn lane) (e : Engine) :
    (e.withCourse c).RunsIn lane := by
  cases e with
  | script r => exact h
  | machine r => exact h

theorem start_calms (he : e.RunsIn lane) (h : e.start s = .ok (p, e', s')) :
    s.Calms lane true s' ∧ e'.RunsIn lane := by
  cases e with
  | script r =>
    obtain ⟨_, hr, hs⟩ := Except.map_eq_ok h
    cases hs
    exact ScriptRun.start_calms he hr
  | machine r =>
    obtain ⟨_, hr, hs⟩ := Except.map_eq_ok h
    cases hs
    exact MachineRun.start_calms he hr

theorem onEvent_reports (he : e.RunsIn lane) (event : Event) (s : Stage) :
    s.Reports lane e.course.depth true (e.onEvent event s).2.2 ∧
      (e.onEvent event s).2.1.RunsIn lane := by
  cases e with
  | script r => exact ScriptRun.onEvent_reports he (Eq.refl (r.onEvent event s))
  | machine r =>
    obtain ⟨hm, hr⟩ := MachineRun.onEvent_calms he (Eq.refl (r.onEvent event s))
    exact ⟨.calm hm, hr⟩

theorem resume_calms (he : e.RunsIn lane) (s : Stage) :
    s.Calms lane true (e.resume s).2.2 ∧ (e.resume s).2.1.RunsIn lane := by
  cases e with
  | script r => exact ScriptRun.resume_calms he (Eq.refl (r.resume s))
  | machine r => exact MachineRun.resume_calms he (Eq.refl (r.resume s))

theorem retireCurrent_calms (he : e.RunsIn lane) (s : Stage) :
    s.Calms lane false (e.retireCurrent s).2 ∧ (e.retireCurrent s).1.RunsIn lane := by
  obtain ⟨hm, hc⟩ := Course.retireCurrent_calms he (Eq.refl (e.course.retireCurrent s))
  exact ⟨hm, withCourse_runsIn hc e⟩

theorem stop_calms (he : e.RunsIn lane) (s : Stage) :
    s.Calms lane false (e.stop s).2 ∧ (e.stop s).1.RunsIn lane := by
  obtain ⟨hm, hc⟩ := Course.stop_calms he (Eq.refl (e.course.stop s))
  exact ⟨hm, withCourse_runsIn hc e⟩

theorem restart_moves (he : e.RunsIn lane) (s : Stage) :
    s.Moves lane (e.restart s).2.2 ∧ (e.restart s).2.1.RunsIn lane := by
  obtain ⟨hstop, hstopped⟩ := stop_calms he s
  have hreset := hstop.moves.tail (.reset (e.stop s).1.course.depth)
  simp only [restart]
  split
  · rename_i hstart
    obtain ⟨hm, he'⟩ := start_calms hstopped hstart
    exact ⟨hreset.trans hm.moves, he'⟩
  · exact ⟨hreset, hstopped⟩

/-- Every act of an engine is a chain of moves of its lane, and leaves it in its lane. -/
theorem Act.moves (h : e.Act s e' s') (he : e.RunsIn lane) :
    s.Moves lane s' ∧ e'.RunsIn lane := by
  cases h with
  | start hs => exact (start_calms he hs).imp_left Stage.Calms.moves
  | onEvent event => exact (onEvent_reports he event s).imp_left Stage.Reports.moves
  | resume => exact (resume_calms he s).imp_left Stage.Calms.moves
  | restart => exact restart_moves he s
  | retireCurrent => exact (retireCurrent_calms he s).imp_left Stage.Calms.moves
  | stop => exact (stop_calms he s).imp_left Stage.Calms.moves

end Engine

end Conductor
