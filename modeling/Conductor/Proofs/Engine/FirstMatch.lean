import Conductor.Proofs.Engine.DeadEnds

/-!
The first match. A machine that waits in a state goes by the truth that the guard of each transition
has on its own when the event is on record. It takes the first transition whose guard is true, it is
at a dead end when all of them are false, and otherwise it waits on. What it forwards before it looks
for a transition, and the order in which the guards are tried, make no difference to this.
-/

namespace Conductor

/-- The stage once an event is on record. -/
def Stage.hear (s : Stage) (e : Event) : Stage := { s with log := s.log.record e }

namespace MachineRun

/-- A running machine waits in a step of a state that is not terminal, and the task of the step was
not taken away. -/
structure Waits (r : MachineRun) (state : State) (step : ActiveStep) : Prop where
  running : r.status = .running
  active : r.active? = some state
  step : r.step = some step
  kept : r.replaced = false
  nonterminal : state.terminal = false

/-- What comes of forwarding an event, which has to be one of the task of the active step. -/
def forwarded (r : MachineRun) (state : State) (e : Event) (s : Stage) : Except Error Unit × Stage :=
  if r.task?.map Handle.id = some e.task then forward e state.forwards s else (.ok (), s)

/-- How the run goes on that takes a transition. -/
inductive Crosses (r : MachineRun) (state : State) (position : Nat) (t : Transition)
    (step : ActiveStep) (s : Stage) : Progress × MachineRun × Stage → Prop where
  /-- An update cannot be made, and nothing is on record of the transition. -/
  | unmade {error : Error} {s₁ s' : Stage} {r' : MachineRun} :
    applyUpdates (step.focus r.last) step.task t.updates s = (.error error, s₁) →
    r'.status = .failed → r'.path = r.path → Crosses r state position t step s (.failed error, r', s')
  /-- The transition is made, but its target cannot be entered. -/
  | unentered {error : Error} {s₁ s' : Stage} {r' : MachineRun} :
    applyUpdates (step.focus r.last) step.task t.updates s = (.ok (), s₁) →
    (r.crossing state position t step (Course.passedFailure step s.log)).enter t.target
      ((s₁.retire step.key).recordTrail (.transition state.id t.target)) = (.failed error, r', s') →
    r'.status = .failed →
    r'.path = r.path ++
      [.transition state.id t.target position (Course.passedFailure step s.log)] →
    Crosses r state position t step s (.failed error, r', s')
  /-- The machine is in the target, where it waits or ends. -/
  | entered {p : Progress} {s₁ s' : Stage} {r' : MachineRun} :
    applyUpdates (step.focus r.last) step.task t.updates s = (.ok (), s₁) →
    p = .advanced ∧ r'.status = .running ∧ r'.step.isSome = true ∨
      (∃ completion, p = .finished completion) ∧ r'.status = .finished →
    r'.state = some t.target →
    r'.path = r.path ++
      [.transition state.id t.target position (Course.passedFailure step s.log)] →
    Crosses r state position t step s (p, r', s')

variable {r r' : MachineRun} {state : State} {step : ActiveStep} {s s' : Stage} {e : Event}
  {p : Progress} {t : Transition} {position : Nat}

/-- Entering a state adds nothing to the path, and fails or leads to the state. -/
theorem enter_ends {id : String} (h : r.enter id s = (p, r', s')) (hr : r.status = .running) :
    r'.path = r.path ∧ ((∃ error, p = .failed error ∧ r'.status = .failed) ∨
      r'.state = some id ∧ (p = .advanced ∧ r'.status = .running ∧ r'.step.isSome = true ∨
        (∃ completion, p = .finished completion) ∧ r'.status = .finished)) := by
  unfold enter at h
  split at h
  · cases h
    exact ⟨rfl, .inl ⟨_, rfl, rfl⟩⟩
  · simp only at h
    split at h
    · cases h
      exact ⟨rfl, .inr ⟨rfl, .inr ⟨⟨_, rfl⟩, rfl⟩⟩⟩
    split at h
    · cases h
      exact ⟨rfl, .inl ⟨_, rfl, rfl⟩⟩
    · cases h
      exact ⟨rfl, .inr ⟨rfl, .inl ⟨rfl, hr, rfl⟩⟩⟩

theorem takeTransition_crosses (hr : r.status = .running) :
    r.Crosses state position t step s (r.takeTransition state position t step s) := by
  cases h : r.takeTransition state position t step s with
  | mk p result =>
    obtain ⟨r', s'⟩ := result
    simp only [takeTransition] at h
    split at h
    · rename_i hupdates
      cases h
      exact .unmade hupdates rfl rfl
    · rename_i hupdates
      obtain ⟨hpath, ⟨error, rfl, hfailed⟩ | ⟨hstate, hends⟩⟩ := enter_ends h hr
      · exact .unentered hupdates h hfailed hpath
      · exact .entered hupdates hends hstate hpath

/-- A state that forwards without error is checked once it has forwarded. -/
theorem Waits.onEvent_eq (h : r.Waits state step) (hf : (r.forwarded state e s).1 = .ok ()) :
    r.onEvent e s = r.check state (r.forwarded state e s).2 := by
  have hactive : r.state.bind r.machine.state? = some state := h.active
  unfold onEvent
  unfold forwarded at hf ⊢
  simp only [h.running, h.kept, hactive]
  by_cases hown : r.task?.map Handle.id = some e.task
  · rw [if_pos hown] at hf ⊢
    cases hforward : forward e state.forwards s with
    | mk result s₁ =>
      rw [hforward] at hf
      obtain rfl : result = .ok () := hf
      simp [hown]
  · simp [hown]

theorem forwarded_agrees (hf : (r.forwarded state e s).1 = .ok ()) :
    s.Agrees (r.forwarded state e s).2 := by
  unfold forwarded at hf ⊢
  split
  · rename_i hown
    rw [if_pos hown] at hf
    exact forward_agrees (Prod.ext hf rfl)
  · exact .refl s

/-- The truth of a transition's guard on its own. -/
def truthOf (r : MachineRun) (step : ActiveStep) (s : Stage) (t : Transition) : Truth :=
  (s.evaluate t.guard (step.focus r.last) r.memo).1

theorem truthOf_eq (r : MachineRun) (step : ActiveStep) (s : Stage) :
    r.truthOf step s = fun t => t.guard.weigh (s.verdict (step.focus r.last) r.memo) :=
  funext fun t => s.evaluate_eq_weigh t.guard (step.focus r.last) r.memo

theorem truthOf_agrees (h : s.Agrees s') : r.truthOf step s' = r.truthOf step s := by
  rw [truthOf_eq, truthOf_eq, h.verdict]

/-- The first transition whose guard is true is taken. -/
theorem Waits.check_crosses (h : r.Waits state step) (ht : state.transitions[position]? = some t)
    (htrue : r.truthOf step s t = .yes)
    (hbefore : ∀ j u, j < position → state.transitions[j]? = some u → r.truthOf step s u ≠ .yes) :
    ∃ memo s₁, s.Reads s₁ ∧ s₁.log = s.log ∧
      Crosses { r with memo } state position t step s₁ (r.check state s) := by
  cases htry : tryTransitions (step.focus r.last) state.transitions 0 true r.memo s with
  | mk verdict result =>
    obtain ⟨memo, s₁⟩ := result
    have htried := tryTransitions_tried htry
    rw [truthOf_eq] at htrue hbefore
    have hverdict := htried.fits.eq_take ht htrue hbefore
    rw [Nat.zero_add] at hverdict
    refine ⟨memo, s₁, htried.reads, htried.log, ?_⟩
    have hcheck : r.check state s = takeTransition { r with memo } state position t step s₁ := by
      simp only [check, h.step, h.nonterminal, htry, hverdict]
      rfl
    rw [hcheck]
    exact takeTransition_crosses h.running

/-- Nothing takes the machine out of its state any more: all of its transitions are ruled out, or it
has none and its task has ended since the state was entered. -/
def Stuck (r : MachineRun) (state : State) (step : ActiveStep) (s : Stage) : Prop :=
  state.transitions ≠ [] ∧ (∀ t ∈ state.transitions, r.truthOf step s t = .no) ∨
    state.transitions = [] ∧ ∃ task, step.task = some task ∧ s.log.Ended task.id step.since

/-- What a check comes to that chooses no transition. -/
theorem Waits.check_none (h : r.Waits state step) {all : Bool} {memo : Memo} {s₁ : Stage}
    (htry : tryTransitions (step.focus r.last) state.transitions 0 true r.memo s =
      (.none all, memo, s₁)) : ∃ ended : Bool,
      (ended = true ↔ ∃ task, step.task = some task ∧ s.log.Ended task.id step.since) ∧
      r.check state s =
        if if state.transitions.isEmpty then ended else all then
          fail { r with memo } (.noApplicableTransition state.id) s₁
        else (.waiting, { r with memo },
          Course.subscribe { r.toCourse with memo } (guardsOf state) s₁) := by
  refine ⟨_, ?_, by simp only [check, h.step, h.nonterminal, htry]; rfl⟩
  cases step.task with
  | none => simp
  | some task => simp [Log.finished_iff]

/-- Where no guard is true the machine is at a dead end if it is stuck, and else it waits on in the
same step. -/
theorem Waits.check_rests (h : r.Waits state step)
    (hnone : ∀ t ∈ state.transitions, r.truthOf step s t ≠ .yes) :
    (r.Stuck state step s → (r.check state s).1 = .failed (.noApplicableTransition state.id)) ∧
      (¬ r.Stuck state step s → (r.check state s).1 = .waiting ∧
        ∃ memo, (r.check state s).2.1 = { r with memo }) := by
  cases htry : tryTransitions (step.focus r.last) state.transitions 0 true r.memo s with
  | mk verdict result =>
    obtain ⟨memo, s₁⟩ := result
    rw [truthOf_eq] at hnone
    obtain ⟨all, rfl, hall⟩ := (tryTransitions_tried htry).fits.eq_none hnone
    obtain ⟨ended, hended, hcheck⟩ := h.check_none htry
    have hstuck : (if state.transitions.isEmpty then ended else all) = true ↔
        r.Stuck state step s := by
      rw [Stuck, truthOf_eq, ← hended]
      cases htransitions : state.transitions with
      | nil => simp
      | cons t rest =>
        rw [htransitions] at hall
        simpa using hall
    rw [hcheck]
    refine ⟨fun hs => ?_, fun hs => ?_⟩
    · rw [if_pos (hstuck.mpr hs)]
      rfl
    · rw [if_neg (mt hstuck.mp hs)]
      exact ⟨rfl, memo, rfl⟩

end MachineRun

end Conductor
