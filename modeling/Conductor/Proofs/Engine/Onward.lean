import Conductor.Proofs.Engine.Moves

/-!
What an engine keeps while it goes on: its variables stay in the scope where they are, and the
steps that it has left behind stay on its path until it is started anew.
-/

namespace Conductor

/-- From one course to the other steps were left at most. -/
structure Course.Onward (c c' : Course) : Prop where
  depth : c'.depth = c.depth
  path : c.path <+: c'.path

namespace Course.Onward

variable {c c' c'' : Course}

theorem refl (c : Course) : c.Onward c := ⟨rfl, List.prefix_refl _⟩

theorem trans (h : c.Onward c') (h' : c'.Onward c'') : c.Onward c'' :=
  ⟨h'.depth.trans h.depth, h.path.trans h'.path⟩

theorem of_eq (hd : c'.depth = c.depth) (hp : c'.path = c.path) : c.Onward c' :=
  ⟨hd, hp ▸ List.prefix_refl _⟩

/-- A step was left before. -/
theorem step (h : c'.Onward c'') (hd : c'.depth = c.depth) {steps : List Step}
    (hp : c'.path = c.path ++ steps) : c.Onward c'' :=
  trans ⟨hd, hp ▸ List.prefix_append ..⟩ h

end Course.Onward

namespace ScriptRun

variable {r r' : ScriptRun} {s s' : Stage} {p : Progress}

theorem exit_onward {instruction : Instruction} {event : Option Event}
    {result : Except Error Unit} (h : r.exit instruction event s = (result, r', s')) :
    r.toCourse.Onward r'.toCourse := by
  unfold exit at h
  split at h
  · cases h
    exact .refl _
  · simp only at h
    split at h
    · cases h
      exact .of_eq rfl rfl
    · cases h
      exact (Course.Onward.refl _).step rfl rfl

theorem enterFrom_onward {rest : List Instruction} (h : enterFrom rest r s = (p, r', s')) :
    r.toCourse.Onward r'.toCourse := by
  induction rest generalizing r s with
  | nil =>
    cases h
    exact .of_eq rfl rfl
  | cons instruction rest ih =>
    simp only [enterFrom, skip] at h
    split at h
    · exact (ih h).step rfl rfl
    · split at h
      · cases h
        exact .of_eq rfl rfl
      · split at h
        · split at h
          · rename_i he
            cases h
            have hexit := exit_onward he
            exact ⟨hexit.depth, hexit.path⟩
          · rename_i he
            have hexit := (exit_onward he).trans (ih h)
            exact ⟨hexit.depth, hexit.path⟩
        · cases h
          exact .of_eq rfl rfl

theorem check_onward {event : Option Event} (h : r.check event s = (p, r', s')) :
    r.toCourse.Onward r'.toCourse := by
  unfold check at h
  split at h
  · cases h
    exact .of_eq rfl rfl
  · cases h
    exact .refl _
  · simp only at h
    split at h
    · split at h
      · rename_i he
        cases h
        have hexit := exit_onward he
        exact ⟨hexit.depth, hexit.path⟩
      · rename_i he
        have hexit := (exit_onward he).trans (enterFrom_onward h)
        exact ⟨hexit.depth, hexit.path⟩
    · cases h
      exact .of_eq rfl rfl
    · cases h
      exact .of_eq rfl rfl

theorem start_onward (h : r.start s = .ok (p, r', s')) :
    r.toCourse.begin.Onward r'.toCourse := by
  unfold start at h
  split at h
  · cases h
  split at h
  · cases h
  · have hentered := enterFrom_onward (Except.ok.inj h)
    exact ⟨hentered.depth, hentered.path⟩

theorem onEvent_onward {event : Event} (h : r.onEvent event s = (p, r', s')) :
    r.toCourse.Onward r'.toCourse := by
  unfold onEvent at h
  split at h
  · cases h
    exact .refl _
  · exact check_onward h

theorem resume_onward (h : r.resume s = (p, r', s')) : r.toCourse.Onward r'.toCourse := by
  unfold resume at h
  split at h
  · cases h
    exact .refl _
  split at h
  · exact enterFrom_onward h
  · exact check_onward h

end ScriptRun

namespace MachineRun

variable {r r' : MachineRun} {s s' : Stage} {p : Progress}

theorem enter_onward {id : String} (h : r.enter id s = (p, r', s')) :
    r.toCourse.Onward r'.toCourse := by
  unfold enter at h
  split at h
  · cases h
    exact .of_eq rfl rfl
  · simp only at h
    split at h
    · cases h
      exact .of_eq rfl rfl
    split at h
    · cases h
      exact .of_eq rfl rfl
    · cases h
      exact .of_eq rfl rfl

theorem takeTransition_onward {state : State} {position : Nat} {t : Transition}
    {step : ActiveStep} (h : r.takeTransition state position t step s = (p, r', s')) :
    r.toCourse.Onward r'.toCourse := by
  simp only [takeTransition] at h
  split at h
  · cases h
    exact .of_eq rfl rfl
  · exact (enter_onward h).step rfl rfl

theorem check_onward {state : State} (h : r.check state s = (p, r', s')) :
    r.toCourse.Onward r'.toCourse := by
  unfold check at h
  split at h
  · cases h
    exact .refl _
  extract_lets ended at h
  split at h
  · split at h
    · cases h
      exact .of_eq rfl rfl
    split at h
    · cases h
      exact .of_eq rfl rfl
    split at h
    · cases h
      exact .of_eq rfl rfl
    · cases h
      exact .refl _
  split at h
  · have htaken := takeTransition_onward h
    exact ⟨htaken.depth, htaken.path⟩
  · simp only at h
    generalize (if state.transitions.isEmpty = true then ended else _) = stuck at h
    split at h
    · cases h
      exact .of_eq rfl rfl
    · cases h
      exact .of_eq rfl rfl

theorem start_onward (h : r.start s = .ok (p, r', s')) :
    r.toCourse.begin.Onward r'.toCourse := by
  unfold start at h
  split at h
  · cases h
  · have hentered := enter_onward (Except.ok.inj h)
    exact ⟨hentered.depth, hentered.path⟩

theorem onEvent_onward {event : Event} (h : r.onEvent event s = (p, r', s')) :
    r.toCourse.Onward r'.toCourse := by
  unfold onEvent at h
  split at h
  · cases h
    exact .refl _
  split at h
  · cases h
    exact .refl _
  split at h
  · split at h
    · cases h
      exact .of_eq rfl rfl
    · exact check_onward h
  · exact check_onward h

theorem resume_onward (h : r.resume s = (p, r', s')) : r.toCourse.Onward r'.toCourse := by
  unfold resume at h
  split at h
  · cases h
    exact .refl _
  split at h
  · cases h
    exact .refl _
  split at h
  · exact enter_onward h
  split at h
  · exact check_onward h
  · cases h
    exact .of_eq rfl rfl

end MachineRun

namespace Engine

variable {e e' : Engine} {s s' : Stage} {p : Progress}

theorem new_depth (model : Model) (lane : Lane) (depth : Nat) :
    (Engine.new model lane depth).course.depth = depth := by
  cases model <;> rfl

theorem start_onward (h : e.start s = .ok (p, e', s')) :
    e.course.begin.Onward e'.course := by
  cases e with
  | script r =>
    obtain ⟨_, hr, he⟩ := Except.map_eq_ok h
    cases he
    exact ScriptRun.start_onward hr
  | machine r =>
    obtain ⟨_, hr, he⟩ := Except.map_eq_ok h
    cases he
    exact MachineRun.start_onward hr

theorem onEvent_onward (e : Engine) (event : Event) (s : Stage) :
    e.course.Onward (e.onEvent event s).2.1.course := by
  cases e with
  | script r => exact ScriptRun.onEvent_onward (Eq.refl (r.onEvent event s))
  | machine r => exact MachineRun.onEvent_onward (Eq.refl (r.onEvent event s))

theorem resume_onward (e : Engine) (s : Stage) : e.course.Onward (e.resume s).2.1.course := by
  cases e with
  | script r => exact ScriptRun.resume_onward (Eq.refl (r.resume s))
  | machine r => exact MachineRun.resume_onward (Eq.refl (r.resume s))

theorem stop_onward (e : Engine) (s : Stage) : e.course.Onward (e.stop s).1.course := by
  unfold stop
  rw [withCourse_course]
  exact .of_eq rfl rfl

theorem retireCurrent_onward (e : Engine) (s : Stage) :
    e.course.Onward (e.retireCurrent s).1.course := by
  unfold retireCurrent
  rw [withCourse_course]
  unfold Course.retireCurrent
  split
  · split
    · exact .of_eq rfl rfl
    · exact .refl _
  · exact .refl _

/-- An engine keeps its variables where they are, whatever it does. -/
theorem Act.depth (h : e.Act s e' s') : e'.course.depth = e.course.depth := by
  cases h with
  | start hs => exact (start_onward hs).depth
  | onEvent event => exact (onEvent_onward e event s).depth
  | resume => exact (resume_onward e s).depth
  | restart =>
    simp only [Engine.restart]
    have hstopped := (stop_onward e s).depth
    split
    · rename_i hs
      exact (start_onward hs).depth.trans hstopped
    · exact hstopped
  | retireCurrent => exact (retireCurrent_onward e s).depth
  | stop => exact (stop_onward e s).depth

end Engine

end Conductor
