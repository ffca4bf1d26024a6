import Conductor.Proofs.Engine.Fittings
import Conductor.Proofs.Engine.Histories

/-!
Passages: where an engine that is told to do something comes to enter steps. A script comes there from
the instruction that it leaves, a machine from the state that it takes a transition out of, and both
from their beginning. Until then no slot is filled, and where there is no passage none is filled at
all.
-/

namespace Conductor

/-- What a session tells an engine to do, other than to give things up. -/
inductive Order where
  | start
  | hear (e : Event)
  | resume
  | restart

/-- Carries out an order. A start that is refused changes nothing. -/
def Engine.obey (e : Engine) (o : Order) (s : Stage) : Progress × Engine × Stage :=
  match o with
  | .start =>
    match e.start s with
    | .ok result => result
    | .error error => (.failed error, e, s)
  | .hear event => e.onEvent event s
  | .resume => e.resume s
  | .restart => e.restart s

/-- The stage on which a course that was stopped is started again. -/
def Course.clearing (c : Course) (s : Stage) : Stage :=
  { (c.stop s).2 with scopes := (c.stop s).2.scopes.reset c.depth }

/-- A restart is a start of the engine that was stopped. -/
theorem Engine.restart_as_start (e : Engine) (s : Stage) :
    e.restart s = (e.stop s).1.obey .start (e.course.clearing s) := by
  cases e <;> rfl

/-- What stays the same while an engine comes to no passage. -/
structure Course.Still (c : Course) (s : Stage) (c' : Course) (s' : Stage) : Prop where
  path : c'.path = c.path
  activation : c'.activation = c.activation
  step : c'.step = c.step ∨ c'.step = none
  filled : s'.slots.filled = s.slots.filled

theorem Course.Still.trans {a b c : Course} {s t u : Stage} (h : a.Still s b t)
    (h' : b.Still t c u) : a.Still s c u where
  path := h'.path.trans h.path
  activation := h'.activation.trans h.activation
  step := h'.step.elim (fun hkept => h.step.imp hkept.trans hkept.trans) .inr
  filled := h'.filled.trans h.filled

/-! ## Emptying slots -/

namespace Slots

theorem retire_filled (s : Slots) (key : SlotKey) (p : Plan) :
    (s.retire key p).2.1.filled = s.filled := by
  unfold retire
  split <;> rfl

theorem retireLane_filled (s : Slots) (lane : Lane) (p : Plan) :
    (s.retireLane lane p).2.1.filled = s.filled := by
  rw [retireLane, releaseAll_eq]

end Slots

theorem Stage.retire_filled (s : Stage) (key : SlotKey) :
    (s.retire key).slots.filled = s.slots.filled := by
  rw [retire_slots, Slots.retire_filled]

theorem Stage.evaluate_filled (s : Stage) (g : Guard) (focus : Focus) (memo : Memo) :
    (s.evaluate g focus memo).2.2.slots.filled = s.slots.filled :=
  congrArg Fittings.filled (s.evaluate_fittings g focus memo)

theorem Course.close_filled (c : Course) (status : EngineStatus) (s : Stage) :
    (c.close status s).2.slots.filled = s.slots.filled :=
  Slots.retireLane_filled ..

theorem Course.conclude_still (c : Course) (status : EngineStatus) (record : Trail.Record)
    (s : Stage) : c.Still s (c.conclude status record s).1 (c.conclude status record s).2 :=
  ⟨rfl, rfl, .inr rfl, c.close_filled status s⟩

theorem Course.stop_still (c : Course) (s : Stage) : c.Still s (c.stop s).1 (c.clearing s) :=
  ⟨rfl, rfl, .inr rfl, c.close_filled (if c.status = .running then .stopped else c.status) s⟩

/-! ## Thresholds -/

/-- Where an engine stands that is about to enter steps: a script in its next instruction, a machine
in the state with the given name. -/
inductive Threshold where
  | script (r : ScriptRun) (s : Stage)
  | machine (id : String) (r : MachineRun) (s : Stage)

namespace Threshold

def engine : Threshold → Engine
  | script r _ => .script r
  | machine _ r _ => .machine r

def stage : Threshold → Stage
  | script _ s => s
  | machine _ _ s => s

def enter : Threshold → Progress × Engine × Stage
  | script r s => Engine.asScript (r.enter s)
  | machine id r s => Engine.asMachine (r.enter id s)

end Threshold

namespace Engine

variable {e e' : Engine} {s s' : Stage} {passage : Option Threshold}
  {result : Progress × Engine × Stage}

/-- What comes of an order for an engine, given its passage: it enters steps from there, or else none
at all. -/
def Proceeds (e : Engine) (s : Stage) (passage : Option Threshold)
    (result : Progress × Engine × Stage) : Prop :=
  match passage with
  | some t => result = t.enter
  | none => e.course.Still s result.2.1.course result.2.2

theorem Proceeds.after (h : e'.Proceeds s' passage result)
    (hstill : e.course.Still s e'.course s') : e.Proceeds s passage result := by
  cases passage with
  | none => exact hstill.trans h
  | some t => exact h

end Engine

/-! ## Scripts -/

namespace ScriptRun

variable {r r' r₁ : ScriptRun} {s s' s₁ : Stage} {p : Progress} {event : Option Event}

/-- Where a script begins, if it may be started. -/
def begins? (r : ScriptRun) (s : Stage) : Option Threshold :=
  if r.status = .running ∨ r.script.instructions.isEmpty then none
  else some (.script r.beginning s)

/-- Where a script comes to when it leaves its active instruction, if it does. -/
def leaves? (r : ScriptRun) (event : Option Event) (s : Stage) : Option Threshold :=
  match r.script.instructions[r.pc]?, r.step with
  | some i, some step =>
    match s.evaluate i.exitGuard (step.focus r.last) r.memo with
    | (.yes, memo, s) =>
      match exit { r with memo } i event s with
      | (.ok (), r, s) => some (.script r s)
      | (.error _, _, _) => none
    | (_, _, _) => none
  | _, _ => none

/-- Where a script that hears an event comes to enter instructions, if it does. -/
def hears? (r : ScriptRun) (e : Event) (s : Stage) : Option Threshold :=
  if r.status ≠ .running || r.step.isNone || r.replaced then none else r.leaves? (some e) s

/-- Where a script that goes on comes to enter instructions, if it does. -/
def goesOn? (r : ScriptRun) (s : Stage) : Option Threshold :=
  if r.status ≠ .running then none
  else if r.replaced || r.step.isNone then some (.script r s)
  else r.leaves? none s

theorem exit_filled {i : Instruction} {result : Except Error Unit}
    (h : r.exit i event s = (result, r', s')) : s'.slots.filled = s.slots.filled := by
  unfold exit at h
  split at h
  · cases h
    rfl
  · rename_i step hstep
    have hout := congrArg Fittings.filled (recordOutput_fittings r i.label step event s)
    have hexit := congrArg Fittings.filled (exitActions_fittings (step.focus r.last) step.task
      i.onExit (r.recordOutput i.label step event s))
    simp only at h
    split at h
    · rename_i he
      cases h
      rw [he] at hexit
      exact hexit.trans hout
    · rename_i s₁ he
      cases h
      rw [he] at hexit
      exact (s₁.retire_filled step.key).trans (hexit.trans hout)

theorem exit_error_still {i : Instruction} {e : Error}
    (h : r.exit i event s = (.error e, r', s')) : r.Still s r'.toCourse s' := by
  have hfilled := exit_filled h
  obtain rfl | rfl := exit_error_run h
  · exact ⟨rfl, rfl, .inl rfl, hfilled⟩
  · exact ⟨rfl, rfl, .inr rfl, hfilled⟩

/-- A script that is in an instruction is checked by the exit guard of the instruction. -/
theorem check_eq {i : Instruction} {step : ActiveStep}
    (hi : r.script.instructions[r.pc]? = some i) (hstep : r.step = some step)
    (event : Option Event) (s : Stage) : r.check event s =
      match s.evaluate i.exitGuard (step.focus r.last) r.memo with
      | (.yes, memo, s) =>
        match exit { r with memo } i event s with
        | (.error e, r, s) => r.fail e s
        | (.ok (), r, s) => r.enter s
      | (.no, memo, s) => fail { r with memo } (.instructionFailed r.pc) s
      | (.pending, memo, s) => (.waiting, { r with memo },
          Course.subscribe { r.toCourse with memo } [i.exitGuard] s) := by
  unfold check
  split
  · rename_i hnone
    cases hi.symm.trans hnone
  · rename_i hnone
    cases hstep.symm.trans hnone
  · rename_i hi' hstep'
    cases hi.symm.trans hi'
    cases hstep.symm.trans hstep'
    rcases s.evaluate i.exitGuard (step.focus r.last) r.memo with ⟨truth, memo, t⟩
    cases truth <;> rfl

theorem leaves?_eq {i : Instruction} {step : ActiveStep}
    (hi : r.script.instructions[r.pc]? = some i) (hstep : r.step = some step)
    (event : Option Event) (s : Stage) : r.leaves? event s =
      match s.evaluate i.exitGuard (step.focus r.last) r.memo with
      | (.yes, memo, s) =>
        match exit { r with memo } i event s with
        | (.ok (), r, s) => some (.script r s)
        | (.error _, _, _) => none
      | (_, _, _) => none := by
  unfold leaves?
  split
  · rename_i hi' hstep'
    cases hi.symm.trans hi'
    cases hstep.symm.trans hstep'
    rfl
  · rename_i hnone
    exact absurd hstep (hnone i step hi)

/-- A script that is checked leaves its instruction, or else it stays there or comes to its end. -/
theorem check_proceeds (r : ScriptRun) (event : Option Event) (s : Stage) :
    (Engine.script r).Proceeds s (r.leaves? event s) (Engine.asScript (r.check event s)) := by
  cases hi : r.script.instructions[r.pc]? with
  | none =>
    simp only [leaves?, check, hi]
    exact r.conclude_still ..
  | some i =>
    cases hstep : r.step with
    | none =>
      simp only [leaves?, check, hi, hstep]
      exact ⟨rfl, rfl, .inl rfl, rfl⟩
    | some step =>
      have heval := s.evaluate_filled i.exitGuard (step.focus r.last) r.memo
      rw [leaves?_eq hi hstep, check_eq hi hstep]
      rcases he : s.evaluate i.exitGuard (step.focus r.last) r.memo with ⟨truth, memo, t⟩
      rw [he] at heval
      have hseen : r.Still s { r.toCourse with memo } t := ⟨rfl, rfl, .inl rfl, heval⟩
      cases truth with
      | yes =>
        rcases hexit : exit { r with memo } i event t with ⟨result, r₁, s₁⟩
        dsimp only
        rw [hexit]
        cases result with
        | ok _ => exact rfl
        | error e => exact (hseen.trans (exit_error_still hexit)).trans (r₁.conclude_still ..)
      | no => exact hseen.trans (Course.conclude_still ..)
      | pending =>
        have hsub := congrArg Fittings.filled
          (Course.subscribe_fittings { r.toCourse with memo } [i.exitGuard] t)
        exact ⟨rfl, rfl, .inl rfl, hsub.trans heval⟩

theorem onEvent_proceeds (r : ScriptRun) (e : Event) (s : Stage) :
    (Engine.script r).Proceeds s (r.hears? e s) (Engine.asScript (r.onEvent e s)) := by
  unfold hears? onEvent
  split
  · exact ⟨rfl, rfl, .inl rfl, rfl⟩
  · exact r.check_proceeds (some e) s

theorem resume_proceeds (r : ScriptRun) (s : Stage) :
    (Engine.script r).Proceeds s (r.goesOn? s) (Engine.asScript (r.resume s)) := by
  unfold goesOn? resume
  split
  · exact ⟨rfl, rfl, .inl rfl, rfl⟩
  split
  · exact rfl
  · exact r.check_proceeds none s

end ScriptRun

/-! ## Machines -/

namespace MachineRun

variable {r r' r₁ : MachineRun} {s s' s₁ : Stage} {p : Progress} {state : State}

/-- Where a machine begins, and in which state, if it may be started. -/
def begins? (r : MachineRun) (s : Stage) : Option Threshold :=
  if r.status = .running then none else some (.machine r.machine.initial r.beginning s)

/-- Where a machine comes to when it takes a transition, if nothing goes wrong on the way. -/
def crosses? (r : MachineRun) (state : State) (position : Nat) (t : Transition) (step : ActiveStep)
    (s : Stage) : Option Threshold :=
  match applyUpdates (step.focus r.last) step.task t.updates s with
  | (.ok (), s₁) => some (.machine t.target
      (r.crossing state position t step (Course.passedFailure step s.log))
      ((s₁.retire step.key).recordTrail (.transition state.id t.target)))
  | (.error _, _) => none

/-- Where a machine comes to when it leaves its active state, if it does. -/
def leaves? (r : MachineRun) (state : State) (s : Stage) : Option Threshold :=
  match r.step with
  | none => none
  | some step =>
    if state.terminal then none
    else
      match tryTransitions (step.focus r.last) state.transitions 0 true r.memo s with
      | (.take position t, memo, s) => crosses? { r with memo } state position t step s
      | (.none _, _, _) => none

/-- Where a machine that hears an event comes to enter a state, and which, if it does. -/
def hears? (r : MachineRun) (e : Event) (s : Stage) : Option Threshold :=
  if r.status ≠ .running || r.replaced then none
  else
    match r.active? with
    | none => none
    | some state =>
      if r.task?.map Handle.id = some e.task then
        match forward e state.forwards s with
        | (.ok (), s) => r.leaves? state s
        | (.error _, _) => none
      else r.leaves? state s

/-- Where a machine that goes on comes to enter a state, and which, if it does. -/
def goesOn? (r : MachineRun) (s : Stage) : Option Threshold :=
  if r.status ≠ .running then none
  else
    match r.state with
    | none => none
    | some id =>
      if r.replaced || r.step.isNone then some (.machine id r s)
      else (r.machine.state? id).bind fun state => r.leaves? state s

/-- A transition leads into its target, unless one of its updates goes wrong. -/
theorem takeTransition_proceeds (r : MachineRun) (state : State) (position : Nat) (t : Transition)
    (step : ActiveStep) (s : Stage) :
    (Engine.machine r).Proceeds s (r.crosses? state position t step s)
      (Engine.asMachine (r.takeTransition state position t step s)) := by
  have hupdated := congrArg Fittings.filled
    (applyUpdates_fittings (step.focus r.last) step.task t.updates s)
  simp only [crosses?, takeTransition]
  rcases hu : applyUpdates (step.focus r.last) step.task t.updates s with ⟨result, t₁⟩
  rw [hu] at hupdated
  cases result with
  | ok _ => rfl
  | error e =>
    have hleft : r.Still s { r.toCourse with step := none } t₁ := ⟨rfl, rfl, .inr rfl, hupdated⟩
    exact hleft.trans (Course.conclude_still ..)

theorem tryTransitions_filled (focus : Focus) (transitions : List Transition) (position : Nat)
    (allFalse : Bool) (memo : Memo) (s : Stage) :
    (tryTransitions focus transitions position allFalse memo s).2.2.slots.filled =
      s.slots.filled :=
  congrArg Fittings.filled (tryTransitions_fittings focus transitions position allFalse memo s)

section Trying

variable {step : ActiveStep} {memo : Memo} {t : Stage}

theorem check_take {position : Nat} {transition : Transition} (hstep : r.step = some step)
    (hterminal : state.terminal = false)
    (ht : tryTransitions (step.focus r.last) state.transitions 0 true r.memo s =
      (.take position transition, memo, t)) :
    r.check state s = takeTransition { r with memo } state position transition step t := by
  unfold check
  split
  · rename_i hnone
    cases hstep.symm.trans hnone
  · rename_i hstep'
    cases hstep.symm.trans hstep'
    simp only [hterminal, ht]
    rfl

theorem check_none {allFalse : Bool} (hstep : r.step = some step)
    (hterminal : state.terminal = false)
    (ht : tryTransitions (step.focus r.last) state.transitions 0 true r.memo s =
      (.none allFalse, memo, t)) :
    r.check state s = fail { r with memo } (.noApplicableTransition state.id) t ∨
      r.check state s =
        (.waiting, { r with memo }, Course.subscribe { r.toCourse with memo } (guardsOf state) t) := by
  unfold check
  split
  · rename_i hnone
    cases hstep.symm.trans hnone
  · rename_i hstep'
    cases hstep.symm.trans hstep'
    simp only [hterminal, ht]
    rw [if_neg Bool.false_ne_true]
    exact iteInduction (motive := fun result => result = _ ∨ result = _)
      (fun _ => .inl rfl) (fun _ => .inr rfl)

theorem leaves?_eq (hstep : r.step = some step) (hterminal : state.terminal = false) (s : Stage) :
    r.leaves? state s =
      match tryTransitions (step.focus r.last) state.transitions 0 true r.memo s with
      | (.take position t, memo, s) => crosses? { r with memo } state position t step s
      | (.none _, _, _) => none := by
  unfold leaves?
  split
  · rename_i hnone
    cases hstep.symm.trans hnone
  · rename_i hstep'
    cases hstep.symm.trans hstep'
    simp only [hterminal]
    rfl

end Trying

/-- A machine that is checked takes a transition, or else it stays in its state or comes to its
end. -/
theorem check_proceeds (r : MachineRun) (state : State) (s : Stage) :
    (Engine.machine r).Proceeds s (r.leaves? state s) (Engine.asMachine (r.check state s)) := by
  cases hstep : r.step with
  | none =>
    simp only [leaves?, check, hstep]
    exact ⟨rfl, rfl, .inl rfl, rfl⟩
  | some step =>
    cases hterminal : state.terminal with
    | true =>
      simp only [leaves?, check, hstep, hterminal, if_true]
      cases step.task with
      | none => exact r.conclude_still ..
      | some task =>
        dsimp only
        split
        · exact r.conclude_still ..
        split
        · exact r.conclude_still ..
        · exact ⟨rfl, rfl, .inl rfl, rfl⟩
    | false =>
      have htried := tryTransitions_filled (step.focus r.last) state.transitions 0 true r.memo s
      rcases ht : tryTransitions (step.focus r.last) state.transitions 0 true r.memo s
        with ⟨verdict, memo, t⟩
      rw [ht] at htried
      have hseen : r.Still s { r.toCourse with memo } t := ⟨rfl, rfl, .inl rfl, htried⟩
      cases verdict with
      | take position transition =>
        rw [check_take hstep hterminal ht, leaves?_eq hstep hterminal, ht]
        exact (takeTransition_proceeds { r with memo } state position transition step t).after hseen
      | none allFalse =>
        rw [leaves?_eq hstep hterminal, ht]
        obtain hcheck | hcheck := check_none hstep hterminal ht
        · rw [hcheck]
          exact hseen.trans (Course.conclude_still ..)
        · rw [hcheck]
          have hsub := congrArg Fittings.filled
            (Course.subscribe_fittings { r.toCourse with memo } (guardsOf state) t)
          exact ⟨rfl, rfl, .inl rfl, hsub.trans htried⟩

theorem onEvent_proceeds (r : MachineRun) (e : Event) (s : Stage) :
    (Engine.machine r).Proceeds s (r.hears? e s) (Engine.asMachine (r.onEvent e s)) := by
  unfold hears? onEvent active?
  split
  · exact ⟨rfl, rfl, .inl rfl, rfl⟩
  cases r.state.bind r.machine.state? with
  | none => exact ⟨rfl, rfl, .inl rfl, rfl⟩
  | some state =>
    dsimp only
    split
    · have hforwarded := congrArg Fittings.filled (forward_fittings e state.forwards s)
      rcases hf : forward e state.forwards s with ⟨result, t⟩
      rw [hf] at hforwarded
      have hseen : r.Still s r.toCourse t := ⟨rfl, rfl, .inl rfl, hforwarded⟩
      cases result with
      | ok _ => exact (r.check_proceeds state t).after hseen
      | error error => exact hseen.trans (r.conclude_still ..)
    · exact r.check_proceeds state s

theorem resume_proceeds (r : MachineRun) (s : Stage) :
    (Engine.machine r).Proceeds s (r.goesOn? s) (Engine.asMachine (r.resume s)) := by
  unfold goesOn? resume
  split
  · exact ⟨rfl, rfl, .inl rfl, rfl⟩
  cases r.state with
  | none => exact ⟨rfl, rfl, .inl rfl, rfl⟩
  | some id =>
    dsimp only
    split
    · exact rfl
    cases r.machine.state? id with
    | none => exact r.conclude_still ..
    | some state => exact r.check_proceeds state s

end MachineRun

/-! ## Engines -/

namespace Engine

variable {e : Engine} {o : Order} {s : Stage} {t : Threshold}

/-- The threshold at which an engine begins, if it may be started. -/
def begins? (e : Engine) (s : Stage) : Option Threshold :=
  match e with
  | script r => r.begins? s
  | machine r => r.begins? s

/-- The threshold that an engine comes to when it carries out an order, if it comes to one. -/
def passage? (e : Engine) (o : Order) (s : Stage) : Option Threshold :=
  match o, e with
  | .start, e => e.begins? s
  | .hear event, script r => r.hears? event s
  | .hear event, machine r => r.hears? event s
  | .resume, script r => r.goesOn? s
  | .resume, machine r => r.goesOn? s
  | .restart, e => (e.stop s).1.begins? (e.course.clearing s)

theorem start_begins (h : e.begins? s = some t) : e.start s = .ok t.enter := by
  cases e with
  | script r =>
    simp only [begins?, ScriptRun.begins?] at h
    split at h
    · cases h
    · rename_i hmay
      obtain ⟨hidle, hsome⟩ := not_or.mp hmay
      cases h
      simp only [start, ScriptRun.start, if_neg hidle, if_neg hsome]
      rfl
  | machine r =>
    simp only [begins?, MachineRun.begins?] at h
    split at h
    · cases h
    · rename_i hidle
      cases h
      simp only [start, MachineRun.start, if_neg hidle]
      rfl

theorem start_refused (h : e.begins? s = none) : ∃ error, e.start s = .error error := by
  cases e with
  | script r =>
    simp only [begins?, ScriptRun.begins?] at h
    split at h
    · rename_i hrefused
      simp only [start, ScriptRun.start]
      split
      · exact ⟨_, rfl⟩
      · rename_i hidle
        rw [if_pos (hrefused.resolve_left hidle)]
        exact ⟨_, rfl⟩
    · cases h
  | machine r =>
    simp only [begins?, MachineRun.begins?] at h
    split at h
    · rename_i hrunning
      simp only [start, MachineRun.start, if_pos hrunning]
      exact ⟨_, rfl⟩
    · cases h

theorem start_proceeds (e : Engine) (s : Stage) :
    e.Proceeds s (e.begins? s) (e.obey .start s) := by
  cases h : e.begins? s with
  | some t =>
    rw [obey, start_begins h]
    rfl
  | none =>
    obtain ⟨error, hstart⟩ := start_refused h
    rw [obey, hstart]
    exact ⟨rfl, rfl, .inl rfl, rfl⟩

/-- An engine that is told something enters steps from its passage, if it comes to one, and nothing
else. -/
theorem obey_proceeds (e : Engine) (o : Order) (s : Stage) :
    e.Proceeds s (e.passage? o s) (e.obey o s) := by
  cases o with
  | start => exact e.start_proceeds s
  | hear event =>
    cases e with
    | script r => exact r.onEvent_proceeds event s
    | machine r => exact r.onEvent_proceeds event s
  | resume =>
    cases e with
    | script r => exact r.resume_proceeds s
    | machine r => exact r.resume_proceeds s
  | restart =>
    have hstopped : e.course.Still s (e.stop s).1.course (e.course.clearing s) := by
      simp only [stop, withCourse_course]
      exact e.course.stop_still s
    have hrestart : e.obey .restart s = (e.stop s).1.obey .start (e.course.clearing s) :=
      e.restart_as_start s
    rw [hrestart]
    exact (start_proceeds ..).after hstopped

theorem obey_enters (h : e.passage? o s = some t) : e.obey o s = t.enter := by
  have hproceeds := e.obey_proceeds o s
  rwa [h] at hproceeds

theorem obey_still (h : e.passage? o s = none) :
    e.course.Still s (e.obey o s).2.1.course (e.obey o s).2.2 := by
  have hproceeds := e.obey_proceeds o s
  rwa [h] at hproceeds

end Engine

end Conductor
