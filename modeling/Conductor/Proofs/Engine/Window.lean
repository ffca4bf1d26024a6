import Conductor.Proofs.Engine.MachineWindow
import Conductor.Proofs.Engine.Moves
import Conductor.Proofs.Engine.ScriptWindow

/-!
Windows along the run of an engine. An engine acts on a stage that others act on as well: they
record events and leave the root alone. The guards of the active step are evaluated when the step
is checked, and what they take as seen on the root is on record in the window of the step.
-/

namespace Conductor

namespace Course

variable {log : Log} {root : TaskId} {n : Nat} {c c' : Course} {s s' : Stage}

theorem retireCurrent_next (h : c.retireCurrent s = (c', s')) (hw : c.Windowed log root n) :
    c.Next log root n c' := by
  unfold retireCurrent at h
  split at h
  · rename_i step hstep
    split at h
    · cases h
      exact .stays rfl (hw.lose hstep)
    · cases h
      exact .stays rfl hw
  · cases h
    exact .stays rfl hw

end Course

namespace Engine

variable {lane : Lane} {e e' : Engine} {s s' : Stage} {n : Nat} {p : Progress}

theorem start_next {log : Log} {root : TaskId} (h : e.start s = .ok (p, e', s'))
    (he : e.RunsIn lane) (hlog : s.log = log) (hroot : s.root = root) (hn : n ≤ log.cursor) :
    e.course.Next log root n e'.course := by
  subst hlog hroot
  cases e with
  | script r =>
    cases hr : r.start s with
    | error error => simp [start, hr, Except.map] at h
    | ok result =>
      simp only [start, hr, Except.map] at h
      cases h
      exact ScriptRun.start_next hr he hn
  | machine r =>
    cases hr : r.start s with
    | error error => simp [start, hr, Except.map] at h
    | ok result =>
      simp only [start, hr, Except.map] at h
      cases h
      exact MachineRun.start_next hr hn

theorem onEvent_next (event : Event) (he : e.RunsIn lane)
    (hw : e.course.Windowed s.log s.root n) :
    e.course.Next s.log s.root n (e.onEvent event s).2.1.course := by
  cases e with
  | script r => exact ScriptRun.onEvent_next (Eq.refl (r.onEvent event s)) he hw
  | machine r => exact MachineRun.onEvent_next (Eq.refl (r.onEvent event s)) hw

theorem resume_next (he : e.RunsIn lane) (hw : e.course.Windowed s.log s.root n) :
    e.course.Next s.log s.root n (e.resume s).2.1.course := by
  cases e with
  | script r => exact ScriptRun.resume_next (Eq.refl (r.resume s)) he hw
  | machine r => exact MachineRun.resume_next (Eq.refl (r.resume s)) hw

theorem retireCurrent_next (hw : e.course.Windowed s.log s.root n) :
    e.course.Next s.log s.root n (e.retireCurrent s).1.course := by
  simp only [retireCurrent, withCourse_course]
  exact Course.retireCurrent_next (Eq.refl (e.course.retireCurrent s)) hw

theorem stop_next (hw : e.course.Windowed s.log s.root n) :
    e.course.Next s.log s.root n (e.stop s).1.course := by
  simp only [stop, withCourse_course]
  exact .stays rfl (.of_no_step hw.opened rfl hw.last)

theorem stop_activation (e : Engine) (s : Stage) :
    (e.stop s).1.course.activation = e.course.activation := by
  simp only [stop, withCourse_course]
  rfl

theorem restart_next (he : e.RunsIn lane) (hw : e.course.Windowed s.log s.root n) :
    e.course.Next s.log s.root n (e.restart s).2.1.course := by
  obtain ⟨hmoves, hstopped⟩ := stop_calms he s
  simp only [restart]
  split
  · rename_i hstart
    have hnext := start_next hstart hstopped hmoves.log hmoves.root hw.opened
    exact hnext.of_eq (stop_activation e s)
  · exact stop_next hw

/-- The window of an engine that acts. -/
theorem Act.next (h : e.Act s e' s') (he : e.RunsIn lane)
    (hw : e.course.Windowed s.log s.root n) : e.course.Next s.log s.root n e'.course := by
  cases h with
  | start hs => exact start_next hs he rfl rfl hw.opened
  | onEvent event => exact onEvent_next event he hw
  | resume => exact resume_next he hw
  | restart => exact restart_next he hw
  | retireCurrent => exact retireCurrent_next hw
  | stop => exact stop_next hw

/-! ## Runs -/

/-- A run of an engine up to the given state and stage, with the number of events that were
recorded when the engine last entered a step. -/
inductive Run (lane : Lane) : Engine → Stage → Nat → Prop where
  | new (model : Model) (depth : Nat) (s : Stage) : Run lane (.new model lane depth) s s.log.cursor
  | act {e e' : Engine} {s s' : Stage} {n : Nat} : Run lane e s n → e.Act s e' s' →
    Run lane e' s'
      (if e'.course.activation = e.course.activation then n else s.log.cursor)
  /-- Others act on the stage. -/
  | world {e : Engine} {s s' : Stage} {n : Nat} : Run lane e s n → s.log.Extends s'.log →
    s'.root = s.root → Run lane e s' n

theorem Run.windowed (h : Run lane e s n) :
    e.RunsIn lane ∧ e.course.Windowed s.log s.root n := by
  induction h with
  | new model depth s =>
    refine ⟨new_runsIn .., ?_⟩
    cases model with
    | script _ | machine _ =>
      exact .of_no_step (Nat.le_refl _) rfl fun _ h => nomatch h
  | @act e e' s s' n _ hact ih =>
    obtain ⟨he, hw⟩ := ih
    obtain ⟨hmoves, he'⟩ := hact.moves he
    refine ⟨he', ?_⟩
    rw [hmoves.log, hmoves.root]
    cases hact.next he hw with
    | stays ha hw' =>
      rw [if_pos ha]
      exact hw'
    | enters ha hw' =>
      rw [if_neg (Nat.ne_of_gt ha)]
      exact hw'
  | world _ hlog hroot ih =>
    refine ⟨ih.1, ?_⟩
    rw [hroot]
    exact ih.2.later hlog

end Engine

/-! ## Evaluations -/

/-- The evaluation of a guard: what it is decided against and what the memo has by then. -/
structure Evaluation where
  guard : Guard
  view : View
  memo : Memo

/-- What an evaluation comes to. -/
def Evaluation.truth (v : Evaluation) : Truth := (v.guard.evaluate v.view v.memo).1

/-- The evaluations of the guards of transitions, tried in order until one is true. -/
def MachineRun.evaluations (focus : Focus) : List Transition → Memo → Stage → List Evaluation
  | [], _, _ => []
  | t :: rest, memo, s =>
    ⟨t.guard, (s.view t.guard focus).1, memo⟩ ::
      match s.evaluate t.guard focus memo with
      | (.yes, _, _) => []
      | (_, memo, s) => evaluations focus rest memo s

/-- The evaluations of the guards of the active step when it is checked. -/
def Engine.evaluations (e : Engine) (s : Stage) : List Evaluation :=
  match e with
  | .script r =>
    match r.script.instructions[r.pc]?, r.step with
    | some instruction, some step =>
      [⟨instruction.exitGuard, (s.view instruction.exitGuard (step.focus r.last)).1, r.memo⟩]
    | _, _ => []
  | .machine r =>
    match r.state.bind r.machine.state?, r.step with
    | some state, some step =>
      if state.terminal then []
      else MachineRun.evaluations (step.focus r.last) state.transitions r.memo s
    | _, _ => []

/-- An evaluation looks at the log and the root from a number on, with a sound memo. -/
structure Evaluation.Looks (log : Log) (root : TaskId) (since : Nat) (v : Evaluation) : Prop where
  memo : v.memo.Shown log root since
  log : v.view.log = log
  root : v.view.root = root
  since : v.view.since = since

namespace Evaluation

variable {log : Log} {root : TaskId} {since : Nat} {v : Evaluation}

theorem looks_view {s : Stage} {guard : Guard} {focus : Focus} {memo : Memo}
    (h : memo.Shown s.log s.root focus.since) :
    Looks s.log s.root focus.since ⟨guard, (s.view guard focus).1, memo⟩ := by
  have hmoves : s.Calms .model false _ := Stage.view_calms s guard focus
  exact ⟨h, hmoves.log, hmoves.root, rfl⟩

/-- A leaf on the root that counts as true is on record. -/
theorem Looks.shows (h : v.Looks log root since) {event : EventName}
    (hyes : (Leaf.emitted .root event).verdict v.view v.memo = .yes) :
    log.Shows root event since := by
  obtain ⟨hm, rfl, rfl, rfl⟩ := h
  exact hm.of_verdict hyes

/-- A leaf on the root that is decided anew is true exactly when it is on record. -/
theorem Looks.verdict_iff (h : v.Looks log root since) {event : EventName}
    (hn : v.memo.lookup (.emitted .root event) = none) :
    (Leaf.emitted .root event).verdict v.view v.memo = .yes ↔ log.Shows root event since := by
  obtain ⟨_, rfl, rfl, rfl⟩ := h
  rw [Leaf.verdict_eq, hn]
  exact Leaf.decide_root_eq_yes

end Evaluation

theorem MachineRun.evaluations_look {focus : Focus} {transitions : List Transition} {memo : Memo}
    {s : Stage} (hm : memo.Shown s.log s.root focus.since) {v : Evaluation}
    (hv : v ∈ MachineRun.evaluations focus transitions memo s) :
    v.Looks s.log s.root focus.since := by
  induction transitions generalizing s memo with
  | nil => cases hv
  | cons t rest ih =>
    have hshown := Stage.evaluate_shown t.guard hm
    have hmoves : s.Calms .model false _ := Stage.evaluate_calms s t.guard focus memo
    simp only [MachineRun.evaluations] at hv
    rcases List.mem_cons.mp hv with rfl | hv
    · exact Evaluation.looks_view hm
    · rw [← hmoves.log, ← hmoves.root] at hshown ⊢
      split at hv
      · cases hv
      · rename_i he
        rw [he] at hshown ⊢
        exact ih hshown hv

/-- Where the window of the active step opens, when the step was entered at number `n`. -/
def Course.window (c : Course) (n : Nat) : Nat :=
  match c.task?, c.last with
  | none, some last => last.since
  | _, _ => n

theorem Course.Windowed.window_eq {log : Log} {root : TaskId} {n : Nat} {c : Course}
    (h : c.Windowed log root n) {step : ActiveStep} (hs : c.step = some step) :
    c.window n = (step.focus c.last).since := by
  have hsince := h.since step hs
  unfold window task? ActiveStep.focus
  rw [hs]
  cases hl : c.last with
  | none => cases ht : step.task <;> simp [ht, hsince]
  | some last => cases ht : step.task <;> simp [ht, hsince]

theorem Course.Windowed.window_le {log : Log} {root : TaskId} {n : Nat} {c : Course}
    (h : c.Windowed log root n) : c.window n ≤ n := by
  unfold window
  split
  · rename_i last _ hl
    exact h.last last hl
  · exact Nat.le_refl n

namespace Engine

variable {lane : Lane} {e : Engine} {s : Stage} {n : Nat}

theorem Run.looks (h : Run lane e s n) {v : Evaluation} (hv : v ∈ e.evaluations s) :
    v.Looks s.log s.root (e.course.window n) := by
  obtain ⟨_, hw⟩ := h.windowed
  cases e with
  | script r =>
    simp only [evaluations] at hv
    split at hv
    · rename_i instruction step _ hstep
      rw [List.mem_singleton.mp hv, hw.window_eq hstep]
      exact Evaluation.looks_view (hw.memo step hstep)
    · cases hv
  | machine r =>
    simp only [evaluations] at hv
    split at hv
    · rename_i state step _ hstep
      rw [hw.window_eq hstep]
      split at hv
      · cases hv
      · exact MachineRun.evaluations_look (hw.memo step hstep) hv
    · cases hv

end Engine

end Conductor
