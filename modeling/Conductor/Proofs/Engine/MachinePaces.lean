import Conductor.Proofs.Engine.MachineChoices
import Conductor.Proofs.Engine.MachineWindow
import Conductor.Proofs.Engine.Paces

/-!
A machine goes by paces, whatever it is told. One that comes to a state which is not declared fails
there.
-/

namespace Conductor

namespace MachineRun

variable {lane : Lane} {log : Log} {root : TaskId} {r r' : MachineRun} {s s' : Stage}
  {p : Progress}

theorem Pace.paces (h : r.Pace log root r') : Engine.Paces log root (.machine r) (.machine r') :=
  (Engine.Pace.machine h).paces

theorem finish_goes {state : State} (h : r.finish state.id s = (p, r', s'))
    (hr : r.status = .running) (hactive : r.active? = some state) (ht : state.terminal = true) :
    Engine.Goes log root (.machine r) p (.machine r') := by
  simp only [finish] at h
  cases h
  refine ⟨(Pace.finish hr hactive ht).paces, ?_⟩
  rintro _ ⟨⟩
  refine ⟨rfl, ?_⟩
  show MachineRun.completion? _ = _
  rw [completion?, (state_of_active hactive).1]
  rfl

/-- A state is entered from a run in no step: what is left of a step that lost its task makes no
difference. -/
theorem enter_goes {id : String} (h : r.enter id s = (p, r', s')) (hr : r.status = .running)
    (hlog : s.log = log) : Engine.Goes log root (.machine (r.arriving id)) p (.machine r') := by
  subst hlog
  unfold enter at h
  split at h
  · rename_i hnone
    cases h
    rw [arriving, if_neg (by simp [hnone])]
    exact .of_paces .refl fun _ => Progress.noConfusion
  · rename_i state hstate
    have hactive : (r.reaching id).active? = some state := hstate
    obtain ⟨hid, -⟩ := state_of_active hactive
    obtain rfl := Option.some.inj hid
    rw [arriving_declared (by simp [hstate])]
    simp only at h
    split at h
    · rename_i hfinal
      obtain ⟨ht, -⟩ : state.terminal = true ∧ state.source.isNone = true := by
        simpa [State.isFinalMarker] using hfinal
      exact finish_goes (s := s) h hr hactive ht
    split at h
    · cases h
      exact .fails (e := .machine (r.reaching state.id)) hr
    · cases h
      exact .of_paces (Pace.settle (r := r.reaching state.id) hr rfl rfl rfl).paces
        fun _ => Progress.noConfusion

theorem takeTransition_goes {state : State} {step : ActiveStep} {position : Nat} {t : Transition}
    (h : r.takeTransition state position t step s = (p, r', s')) (hr : r.status = .running)
    (hstep : r.step = some step) (hreplaced : r.replaced = false) (hactive : r.active? = some state)
    (ht : state.transitions[position]? = some t) :
    Engine.Goes s.log root (.machine r) p (.machine r') := by
  simp only [takeTransition] at h
  split at h
  · cases h
    exact .fails (e := .machine r) hr
  · rename_i hu
    have hupdated : s.Calms step.key.lane false _ := applyUpdates_calms hu
    have hlog := Stage.Calms.log (hupdated.tail (.retire step.key rfl))
    exact (enter_goes h hr hlog).after (Pace.cross hr hstep hreplaced hactive ht).paces

theorem tryTransitions_paces {step : ActiveStep} {transitions : List Transition} {start : Nat}
    {allFalse : Bool} {memo memo' : Memo} {verdict : Verdict} (hstep : r.step = some step)
    (hreplaced : r.replaced = false)
    (h : tryTransitions (step.focus r.last) transitions start allFalse memo s =
      (verdict, memo', s')) :
    Engine.Paces s.log s.root (.machine { r with memo }) (.machine { r with memo := memo' }) := by
  induction transitions generalizing start allFalse memo s with
  | nil =>
    cases h
    exact .refl
  | cons t rest ih =>
    have hmoves : s.Calms .model false _ := Stage.evaluate_calms s t.guard (step.focus r.last) memo
    have hweigh : Engine.Paces s.log s.root (.machine { r with memo })
        (.machine { r with memo := (s.evaluate t.guard (step.focus r.last) memo).2.1 }) :=
      (Pace.course (Course.evaluate_pace (c := { r.toCourse with memo }) hstep hreplaced
        t.guard s)).paces
    rw [← hmoves.log, ← hmoves.root] at hweigh ⊢
    simp only [tryTransitions] at h
    split at h
    · cases h
      exact hweigh
    · exact hweigh.trans (ih h)
    · exact hweigh.trans (ih h)

theorem check_goes {state : State} (h : r.check state s = (p, r', s')) (hr : r.status = .running)
    (hreplaced : r.replaced = false) (hactive : r.active? = some state) :
    Engine.Goes s.log s.root (.machine r) p (.machine r') := by
  unfold check at h
  split at h
  · cases h
    exact .stays ..
  rename_i step hstep
  extract_lets ended at h
  split at h
  · rename_i hterminal
    split at h
    · exact finish_goes h hr hactive hterminal
    split at h
    · exact finish_goes h hr hactive hterminal
    split at h
    · cases h
      exact .fails hr
    · cases h
      exact .stays ..
  split at h
  · rename_i htry
    have hmoves : s.Calms .model false _ := tryTransitions_calms htry
    obtain ⟨i, hi, ht, -⟩ := (tryTransitions_tried htry).fits
    rw [Nat.zero_add] at hi
    subst hi
    have htaken : Engine.Goes _ s.root (.machine _) p (.machine r') :=
      takeTransition_goes h hr hstep hreplaced hactive ht
    rw [hmoves.log] at htaken
    exact htaken.after (tryTransitions_paces hstep hreplaced htry)
  · rename_i allFalse memo _ htry
    have hweighed := tryTransitions_paces hstep hreplaced htry
    simp only at h
    generalize (if state.transitions.isEmpty = true then ended else allFalse) = stuck at h
    split at h
    · cases h
      refine Engine.Goes.after ?_ hweighed
      exact .fails hr
    · cases h
      exact .of_paces hweighed fun _ => Progress.noConfusion

theorem start_goes (h : r.start s = .ok (p, r', s')) :
    Engine.Goes s.log root (.machine r) p (.machine r') := by
  unfold start at h
  split at h
  · cases h
  · rename_i hr
    exact (enter_goes (r := r.beginning) (Except.ok.inj h) rfl rfl).after (Pace.begin hr).paces

theorem onEvent_goes {event : Event} (h : r.onEvent event s = (p, r', s')) :
    Engine.Goes s.log s.root (.machine r) p (.machine r') := by
  unfold onEvent at h
  split at h
  · cases h
    exact .stays ..
  rename_i hactive
  obtain ⟨hr, hreplaced⟩ : r.status = .running ∧ r.replaced = false := by simpa using hactive
  split at h
  · cases h
    exact .stays ..
  rename_i state hstate
  split at h
  · split at h
    · cases h
      exact .fails hr
    · rename_i hf
      have hmoves : s.Calms .model true _ := forward_calms hf
      rw [← hmoves.log, ← hmoves.root]
      exact check_goes h hr hreplaced hstate
  · exact check_goes h hr hreplaced hstate

theorem resume_goes (h : r.resume s = (p, r', s')) :
    Engine.Goes s.log s.root (.machine r) p (.machine r') := by
  unfold resume at h
  split at h
  · cases h
    exact .stays ..
  rename_i hr
  replace hr := Decidable.not_not.mp hr
  split at h
  · cases h
    exact .stays ..
  rename_i id hid
  split at h
  · rename_i hlost
    exact (enter_goes h hr rfl).after (Pace.reenter hr (by simpa using hlost) hid).paces
  rename_i hkept
  obtain ⟨hreplaced, -⟩ : r.replaced = false ∧ ¬ r.step = none := by simpa using hkept
  split at h
  · rename_i state hstate
    exact check_goes h hr hreplaced (by rw [active?, hid, Option.bind_some, hstate])
  · cases h
    exact .fails hr

end MachineRun

end Conductor
