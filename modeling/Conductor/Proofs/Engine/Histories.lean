import Conductor.Proofs.Engine.MachinePaces
import Conductor.Proofs.Engine.ScriptPaces
import Conductor.Proofs.Engine.Window

/-!
The histories of runs. Every act of an engine is a chain of paces of its run, so the run comes from a new
one by paces and by the events that others record in between. For a script the marks of the paces and
the recorded events are the history of the run.
-/

namespace Conductor

/-! ## Histories -/

namespace ScriptRun

/-- A run with its history, when so much is recorded. -/
inductive Traced : ScriptRun → Log → TaskId → List Mark → Prop where
  | new (script : Script) (lane : Lane) (depth : Nat) (log : Log) (root : TaskId) :
    Traced (.new script lane depth) log root []
  | pace {r r' : ScriptRun} {log : Log} {root : TaskId} {history marks : List Mark} :
    Traced r log root history → r.Pace log root marks r' → Traced r' log root (history ++ marks)
  | hear {r : ScriptRun} {log : Log} {root : TaskId} {history : List Mark} (e : Event) :
    Traced r log root history → Traced r (log.record e) root (history ++ [.heard e])

end ScriptRun

namespace MachineRun

/-- A run that came about, when so much is recorded. -/
inductive Reached : MachineRun → Log → TaskId → Prop where
  | new (machine : Machine) (lane : Lane) (depth : Nat) (log : Log) (root : TaskId) :
    Reached (.new machine lane depth) log root
  | pace {r r' : MachineRun} {log : Log} {root : TaskId} :
    Reached r log root → r.Pace log root r' → Reached r' log root
  | hear {r : MachineRun} {log : Log} {root : TaskId} (e : Event) :
    Reached r log root → Reached r (log.record e) root

end MachineRun

/-! ## Engines -/

namespace Engine

/-- What an engine reports of an act, if the act makes it run. -/
inductive Answers (e : Engine) (s : Stage) : Progress → Engine → Stage → Prop where
  | start {p : Progress} {e' : Engine} {s' : Stage} : e.start s = .ok (p, e', s') →
    Answers e s p e' s'
  | onEvent (event : Event) :
    Answers e s (e.onEvent event s).1 (e.onEvent event s).2.1 (e.onEvent event s).2.2
  | resume : Answers e s (e.resume s).1 (e.resume s).2.1 (e.resume s).2.2
  | restart : Answers e s (e.restart s).1 (e.restart s).2.1 (e.restart s).2.2

variable {lane : Lane} {e e' : Engine} {s s' : Stage} {n : Nat} {p : Progress}

/-- An act makes an engine run, takes the task of its step away, or stops it. -/
theorem Act.answers_or (h : e.Act s e' s') : (∃ p, e.Answers s p e' s') ∨
    e' = (e.retireCurrent s).1 ∨ e' = (e.stop s).1 := by
  cases h with
  | start hs => exact .inl ⟨_, .start hs⟩
  | onEvent event => exact .inl ⟨_, .onEvent event⟩
  | resume => exact .inl ⟨_, .resume⟩
  | restart => exact .inl ⟨_, .restart⟩
  | retireCurrent => exact .inr (.inl rfl)
  | stop => exact .inr (.inr rfl)

theorem Answers.act (h : e.Answers s p e' s') : e.Act s e' s' := by
  cases h with
  | start hs => exact .start hs
  | onEvent event => exact .onEvent event
  | resume => exact .resume
  | restart => exact .restart

/-- An engine that starts again is stopped first; nothing is recorded meanwhile. -/
theorem restart_eq (he : e.RunsIn lane) (s : Stage) : ∃ s₁ : Stage, s₁.log = s.log ∧
    s₁.root = s.root ∧ e.restart s = match (e.stop s).1.start s₁ with
      | .ok result => result
      | .error error => (.failed error, (e.stop s).1, s₁) := by
  obtain ⟨hm, -⟩ := stop_calms he s
  exact ⟨{ (e.stop s).2 with
    scopes := (e.stop s).2.scopes.reset (e.stop s).1.course.depth }, hm.log, hm.root, rfl⟩

theorem start_goes {root : TaskId} (h : e.start s = .ok (p, e', s')) (he : e.RunsIn lane) :
    e.Goes s.log root p e' := by
  cases e with
  | script r =>
    obtain ⟨_, hr, he'⟩ := Except.map_eq_ok h
    cases he'
    exact ScriptRun.start_goes hr he
  | machine r =>
    obtain ⟨_, hr, he'⟩ := Except.map_eq_ok h
    cases he'
    exact MachineRun.start_goes hr

/-- Whatever an engine reports of an act, it has come there by paces. -/
theorem Answers.goes (h : e.Answers s p e' s') (he : e.RunsIn lane) :
    e.Goes s.log s.root p e' := by
  cases h with
  | start hs => exact start_goes hs he
  | onEvent event =>
    cases e with
    | script r => exact ScriptRun.onEvent_goes (Eq.refl (r.onEvent event s)) he
    | machine r => exact MachineRun.onEvent_goes (Eq.refl (r.onEvent event s))
  | resume =>
    cases e with
    | script r => exact ScriptRun.resume_goes (Eq.refl (r.resume s)) he
    | machine r => exact MachineRun.resume_goes (Eq.refl (r.resume s))
  | restart =>
    obtain ⟨s₁, hlog, hroot, heq⟩ := restart_eq he s
    have hstop : e.Paces s.log s.root _ := e.stop_paces s
    rw [heq]
    split
    · rename_i hs
      have hstart : Goes s₁.log s₁.root _ _ _ := start_goes hs (stop_calms he s).2
      rw [hlog, hroot] at hstart
      exact hstart.after hstop
    · exact .of_paces hstop fun _ => Progress.noConfusion

theorem Act.paces (h : e.Act s e' s') (he : e.RunsIn lane) : e.Paces s.log s.root e' := by
  rcases h.answers_or with ⟨p, hp⟩ | rfl | rfl
  · exact (hp.goes he).paces
  · exact e.retireCurrent_paces s
  · exact e.stop_paces s

/-- How the run of an engine came about. -/
def Reached (log : Log) (root : TaskId) : Engine → Prop
  | .script r => ∃ history, r.Traced log root history
  | .machine r => r.Reached log root

theorem Reached.paces {log : Log} {root : TaskId} (h : e.Reached log root)
    (hp : e.Paces log root e') : e'.Reached log root := by
  induction hp with
  | refl => exact h
  | tail _ hpace ih =>
    cases hpace with
    | script hpace =>
      obtain ⟨history, htraced⟩ := ih
      exact ⟨_, htraced.pace hpace⟩
    | machine hpace => exact MachineRun.Reached.pace ih hpace

theorem Reached.later {log log' : Log} {root : TaskId} (h : e.Reached log root)
    (hlog : log.Extends log') : e.Reached log' root := by
  refine hlog.induction (motive := fun log => e.Reached log root) h fun log event ih => ?_
  cases e with
  | script r =>
    obtain ⟨history, htraced⟩ := ih
    exact ⟨_, htraced.hear event⟩
  | machine r => exact MachineRun.Reached.hear event ih

theorem Run.reached (h : Run lane e s n) : e.Reached s.log s.root := by
  induction h with
  | new model depth s =>
    cases model with
    | script script => exact ⟨[], .new ..⟩
    | machine machine => exact .new ..
  | act hrun hact ih =>
    obtain ⟨hlane, -⟩ := hrun.windowed
    obtain ⟨hmoves, -⟩ := hact.moves hlane
    rw [hmoves.log, hmoves.root]
    exact ih.paces (hact.paces hlane)
  | world _ hlog hroot ih =>
    rw [hroot]
    exact ih.later hlog

end Engine

end Conductor
