import Conductor.Proofs.Engine.Moves
import Conductor.Proofs.Slots.Lanes

/-!
Engines and the slots of their lanes. The step that an engine keeps and the slots that are filled
are two records of the same thing: between two acts of the engine its lane holds the task of its
step, under the key of the step, and nothing else.
-/

namespace Conductor

theorem Stage.subscribe_holdings (s : Stage) (home : Lane) (guards : List Guard) (focus : Focus)
    (own : Option TaskId) (lane : Lane) :
    (s.subscribe home guards focus own).slots.holdings lane = s.slots.holdings lane :=
  holdings_of_calms
    (fun _ => interestsOf_calms focus guards (Eq.refl (interestsOf focus guards .empty s))) lane

/-! ## Courses -/

namespace Course

/-- The task that a course should hold, under the key of its step. -/
def holding? (c : Course) : Option (SlotKey × Handle) :=
  c.step.bind fun step => step.task.map (step.key, ·)

/-- The lane of a course holds what it should. A course that does not run is in no step, and one
whose task was taken away has none. -/
structure Tends (lane : Lane) (c : Course) (s : Stage) : Prop where
  home : c.RunsIn lane
  holds : s.slots.holdings lane = c.holding?.toList
  rest : c.status ≠ .running → c.step = none
  replaced : c.replaced = true → c.task? = none

/-- How an act of an engine leaves its course: when it reports the end, no step is left. -/
structure Yields (lane : Lane) (p : Progress) (c : Course) (s : Stage) : Prop where
  tends : c.Tends lane s
  ended : p.isTerminal = true → c.step = none

variable {lane : Lane} {c c' : Course} {s s' : Stage}

theorem holding?_of_no_step (h : c.step = none) : c.holding? = none := by rw [holding?, h]; rfl

theorem task?_eq (c : Course) : c.task? = c.holding?.map Prod.snd := by
  unfold task? holding?
  cases c.step with
  | none => rfl
  | some step => cases h : step.task <;> simp [h]

namespace Tends

theorem of_no_step (hc : c.RunsIn lane) (hstep : c.step = none)
    (hfree : s.slots.holdings lane = []) : c.Tends lane s where
  home := hc
  holds := by rw [hfree, holding?_of_no_step hstep]; rfl
  rest := fun _ => hstep
  replaced := fun _ => by rw [task?, hstep]; rfl

theorem of_same (h : c.Tends lane s)
    (hs : s'.slots.holdings lane = s.slots.holdings lane) : c.Tends lane s' :=
  ⟨h.home, hs.trans h.holds, h.rest, h.replaced⟩

/-- A course that is in no step holds nothing. -/
theorem free (h : c.Tends lane s) (hstep : c.step = none) : s.slots.holdings lane = [] := by
  rw [h.holds, holding?_of_no_step hstep]
  rfl

/-- A step that has lost its task holds nothing. -/
theorem free_of_lost (h : c.Tends lane s) (hlost : c.replaced || c.step.isNone) :
    s.slots.holdings lane = [] := by
  rcases Bool.or_eq_true_iff.mp hlost with hreplaced | hnone
  · have htask := h.replaced hreplaced
    rw [task?_eq, Option.map_eq_none_iff] at htask
    rw [h.holds, htask]
    rfl
  · exact h.free (Option.isNone_iff_eq_none.mp hnone)

/-- Emptying the slot of the step frees the lane. -/
theorem retire (h : c.Tends lane s) {step : ActiveStep} (hstep : c.step = some step) :
    (s.retire step.key).slots.holdings lane = [] := by
  have hkey := h.home.step step hstep
  have hheld : s.slots.holdings step.key.lane = (step.task.map (step.key, ·)).toList := by
    rw [hkey, h.holds, holding?, hstep]
    rfl
  rw [← hkey]
  exact Stage.retire_holds hheld

theorem withMemo (h : c.Tends lane s) (memo : Memo) : Tends lane { c with memo } s :=
  ⟨h.home.of_eq rfl rfl, h.holds, h.rest, h.replaced⟩

/-- A step that was entered with what a free lane has taken. -/
theorem enter (hc : c.RunsIn lane) (hrun : c.status = .running) {label : String}
    {task : Option Handle} (since : Nat) (hreplaced : c.replaced = false)
    (hs : s.slots.holdings lane = (task.map (c.key label, ·)).toList) :
    Tends lane { c with step := some ⟨c.key label, task, since⟩ } s where
  home := by
    refine ⟨hc.home, fun step hstep => ?_⟩
    cases hstep
    exact hc.home
  holds := hs
  rest := fun h => absurd hrun h
  replaced := fun h => by
    have hr : c.replaced = true := h
    rw [hreplaced] at hr
    cases hr

end Tends

theorem Yields.waits (h : c.Tends lane s) : c.Yields lane .waiting s := ⟨h, nofun⟩

theorem Yields.advances (h : c.Tends lane s) : c.Yields lane .advanced s := ⟨h, nofun⟩

/-- Whatever a lane held, a course that closes leaves it free. -/
theorem close_yields (hc : c.RunsIn lane) (status : EngineStatus) (p : Progress)
    (hs : s'.slots = (c.close status s).2.slots) : (c.close status s).1.Yields lane p s' := by
  have hfree := (s.slots.retireLane_holdings c.lane s.plan).1
  rw [hc.home] at hfree
  refine ⟨.of_no_step (.of_no_step hc.home rfl) rfl ?_, fun _ => rfl⟩
  rw [hs]
  unfold close
  rw [hc.home]
  exact hfree

theorem conclude_yields {status : EngineStatus} {record : Trail.Record} {p : Progress}
    (hc : c.RunsIn lane) :
    (c.conclude status record s).1.Yields lane p (c.conclude status record s).2 :=
  close_yields hc status p rfl

theorem retireCurrent_tends (h : c.Tends lane s) :
    (c.retireCurrent s).1.Tends lane (c.retireCurrent s).2 := by
  have hcalm : s.Calms lane false (c.retireCurrent s).2 ∧ (c.retireCurrent s).1.RunsIn lane :=
    retireCurrent_calms h.home rfl
  have hc' := hcalm.2
  cases hstep : c.step with
  | none =>
    simp only [retireCurrent, hstep]
    exact h
  | some step =>
    by_cases htask : step.task.isSome = true
    · have hresult : c.retireCurrent s =
          ({ c with step := some { step with task := none }, replaced := true },
            { s.retire step.key with
              interests := (s.retire step.key).interests.clear c.lane }) := by
        simp only [retireCurrent, hstep, htask, if_true]
      rw [hresult] at hc' ⊢
      refine ⟨hc', h.retire hstep, fun hrun => ?_, fun _ => rfl⟩
      have hnone := h.rest hrun
      rw [hstep] at hnone
      cases hnone
    · simp only [retireCurrent, hstep, htask]
      exact h

theorem subscribe_tends (h : c.Tends lane s) (guards : List Guard) :
    c.Tends lane (c.subscribe guards s) := by
  unfold subscribe
  split
  · exact h.of_same (Stage.subscribe_holdings ..)
  · exact h

/-- What a free lane takes for a step is the task that the step is given. -/
theorem takeTask_holds {label : String} {source : Option Source} {task : Option Handle}
    (hc : c.RunsIn lane) (hfree : s.slots.holdings lane = [])
    (h : c.takeTask label source s = (.ok task, s')) :
    s'.slots.holdings lane = (task.map (c.key label, ·)).toList := by
  unfold takeTask at h
  split at h
  · cases h
    exact hfree
  · obtain ⟨hresult, rfl⟩ := Prod.mk.inj h
    obtain ⟨handle, hresolve, rfl⟩ := Except.map_eq_ok hresult
    have hkey := hc.key label
    rw [← hkey] at hfree ⊢
    exact Stage.resolve_holds (Prod.ext hresolve rfl) hfree

end Course

/-! ## Scripts -/

namespace ScriptRun

variable {lane : Lane} {r r' : ScriptRun} {s s' : Stage} {p : Progress}

/-- An instruction that was left has given its task up. -/
theorem exit_frees {instruction : Instruction} {event : Option Event} (ht : r.Tends lane s)
    (h : r.exit instruction event s = (.ok (), r', s')) :
    r'.status = r.status ∧ s'.slots.holdings lane = [] := by
  unfold exit at h
  split at h
  · cases h
  · rename_i step hstep
    simp only at h
    split at h
    · cases h
    · rename_i s₁ he
      cases h
      have hout : ∀ lane, s.Moves lane (r.recordOutput instruction.label step event s) :=
        fun lane => (recordOutput_reports r instruction.label step event s).moves
      have hexit : ∀ lane, Stage.Moves lane (r.recordOutput instruction.label step event s) s₁ :=
        fun lane => (exitActions_calms he).moves
      have hbefore : r.Tends lane s₁ :=
        ht.of_same (Stage.holdings_of_moves (fun lane => (hout lane).trans (hexit lane)) lane)
      exact ⟨rfl, hbefore.retire hstep⟩

theorem enterFrom_yields {rest : List Instruction} (hr : r.RunsIn lane)
    (hrun : r.status = .running) (hfree : s.slots.holdings lane = [])
    (h : enterFrom rest r s = (p, r', s')) : r'.Yields lane p s' := by
  -- An instruction that is skipped or left at once leaves the lane as free as it found it.
  induction rest generalizing r s with
  | nil =>
    cases h
    exact Course.conclude_yields hr
  | cons instruction rest ih =>
    have hentered : Course.RunsIn lane r.toCourse.enterStep := hr.of_eq rfl rfl
    simp only [enterFrom, skip] at h
    split at h
    · rename_i hmay
      have hfree₁ := (Stage.holdings_of_calms (fun _ => mayEnter_calms hmay) lane).trans hfree
      refine ih ?_ ?_ ?_ h
      · exact hr.of_eq rfl rfl
      · exact hrun
      · exact hfree₁
    · rename_i hmay
      have hfree₁ := (Stage.holdings_of_calms (fun _ => mayEnter_calms hmay) lane).trans hfree
      split at h
      · cases h
        exact Course.conclude_yields hentered
      · rename_i task s₂ htask
        have hholds := Course.takeTask_holds hentered hfree₁ htask
        have hactive := Course.Tends.enter hentered hrun s.log.cursor rfl hholds
        split at h
        · split at h
          · rename_i hexit
            cases h
            exact Course.conclude_yields (exit_reports hactive.home hexit).2
          · rename_i hexit
            obtain ⟨hstatus, hleft⟩ := exit_frees hactive hexit
            exact ih (exit_reports hactive.home hexit).2 (hstatus.trans hrun) hleft h
        · cases h
          exact .advances (Course.subscribe_tends hactive _)

theorem check_yields {event : Option Event} (ht : r.Tends lane s) (hrun : r.status = .running)
    (h : r.check event s = (p, r', s')) : r'.Yields lane p s' := by
  unfold check at h
  split at h
  · cases h
    exact Course.conclude_yields ht.home
  · cases h
    exact .waits ht
  · rename_i instruction step _ _
    simp only at h
    have hsame := Stage.holdings_of_calms
      (fun _ => s.evaluate_calms instruction.exitGuard (step.focus r.last) r.memo) lane
    have hmemo := (ht.withMemo
      (s.evaluate instruction.exitGuard (step.focus r.last) r.memo).2.1).of_same hsame
    split at h
    · split at h
      · rename_i hexit
        cases h
        exact Course.conclude_yields (exit_reports hmemo.home hexit).2
      · rename_i hexit
        obtain ⟨hstatus, hleft⟩ := exit_frees hmemo hexit
        exact enterFrom_yields (exit_reports hmemo.home hexit).2 (hstatus.trans hrun) hleft h
    · cases h
      exact Course.conclude_yields hmemo.home
    · cases h
      exact .waits (Course.subscribe_tends hmemo _)

theorem start_yields (hr : r.RunsIn lane) (hfree : s.slots.holdings lane = [])
    (h : r.start s = .ok (p, r', s')) : r'.Yields lane p s' := by
  unfold start at h
  split at h
  · cases h
  split at h
  · cases h
  · have hbegin : Course.RunsIn lane r.toCourse.begin := .of_no_step hr.home rfl
    exact enterFrom_yields hbegin rfl hfree (Except.ok.inj h)

theorem onEvent_yields {event : Event} (ht : r.Tends lane s)
    (h : r.onEvent event s = (p, r', s')) : r'.Yields lane p s' := by
  unfold onEvent at h
  split at h
  · cases h
    exact .waits ht
  · rename_i hready
    have hrun : r.status = .running := by
      simp only [Bool.or_eq_true, not_or, decide_eq_true_eq, Decidable.not_not] at hready
      exact hready.1.1
    exact check_yields ht hrun h

theorem resume_yields (ht : r.Tends lane s) (h : r.resume s = (p, r', s')) :
    r'.Yields lane p s' := by
  unfold resume at h
  split at h
  · cases h
    exact .waits ht
  rename_i hstatus
  have hrun : r.status = .running := by simpa using hstatus
  split at h
  · rename_i hlost
    exact enterFrom_yields ht.home hrun (ht.free_of_lost hlost) h
  · exact check_yields ht hrun h

end ScriptRun

/-! ## Machines -/

namespace MachineRun

variable {lane : Lane} {r r' : MachineRun} {s s' : Stage} {p : Progress} {state : State}

theorem enter_yields {id : String} (hr : r.RunsIn lane) (hrun : r.status = .running)
    (hfree : s.slots.holdings lane = []) (h : r.enter id s = (p, r', s')) :
    r'.Yields lane p s' := by
  have hentered : Course.RunsIn lane r.toCourse.enterStep := hr.of_eq rfl rfl
  unfold enter at h
  split at h
  · cases h
    exact Course.conclude_yields hr
  · rename_i state hstate
    have hid : state.id = id := by simpa using List.find?_some hstate
    simp only at h
    split at h
    · cases h
      exact Course.conclude_yields hentered
    split at h
    · cases h
      exact Course.conclude_yields hentered
    · rename_i task s₁ htask
      have hholds := Course.takeTask_holds hentered hfree htask
      rw [hid] at hholds
      have hactive := Course.Tends.enter hentered hrun s.log.cursor rfl hholds
      cases h
      exact .advances (Course.subscribe_tends hactive _)

theorem takeTransition_yields {position : Nat} {t : Transition} {step : ActiveStep}
    (ht : r.Tends lane s) (hrun : r.status = .running) (hstep : r.step = some step)
    (h : r.takeTransition state position t step s = (p, r', s')) : r'.Yields lane p s' := by
  have hleft : Course.RunsIn lane { r.toCourse with step := none } := .of_no_step ht.home.home rfl
  simp only [takeTransition] at h
  split at h
  · cases h
    exact Course.conclude_yields hleft
  · rename_i hu
    have hupdated := ht.of_same (Stage.holdings_of_calms (fun _ => applyUpdates_calms hu) lane)
    have hfree := hupdated.retire hstep
    refine enter_yields ?_ ?_ ?_ h
    · exact .of_no_step ht.home.home rfl
    · exact hrun
    · exact hfree

theorem check_yields (ht : r.Tends lane s) (hrun : r.status = .running)
    (h : r.check state s = (p, r', s')) : r'.Yields lane p s' := by
  unfold check at h
  split at h
  · cases h
    exact .waits ht
  rename_i step hstep
  extract_lets ended at h
  split at h
  · split at h
    · cases h
      exact Course.conclude_yields ht.home
    split at h
    · cases h
      exact Course.conclude_yields ht.home
    split at h
    · cases h
      exact Course.conclude_yields ht.home
    · cases h
      exact .waits ht
  split at h
  · rename_i memo s₁ htry
    have htried := (ht.withMemo memo).of_same
      (Stage.holdings_of_calms (fun _ => tryTransitions_calms htry) lane)
    refine takeTransition_yields ?_ ?_ ?_ h
    · exact htried
    · exact hrun
    · exact hstep
  · rename_i allFalse memo s₁ htry
    have htried := (ht.withMemo memo).of_same
      (Stage.holdings_of_calms (fun _ => tryTransitions_calms htry) lane)
    simp only at h
    generalize (if state.transitions.isEmpty = true then ended else allFalse) = stuck at h
    split at h
    · cases h
      exact Course.conclude_yields htried.home
    · cases h
      exact .waits (Course.subscribe_tends htried _)

theorem start_yields (hr : r.RunsIn lane) (hfree : s.slots.holdings lane = [])
    (h : r.start s = .ok (p, r', s')) : r'.Yields lane p s' := by
  unfold start at h
  split at h
  · cases h
  · have hbegin : Course.RunsIn lane r.toCourse.begin := .of_no_step hr.home rfl
    exact enter_yields hbegin rfl hfree (Except.ok.inj h)

theorem onEvent_yields {event : Event} (ht : r.Tends lane s)
    (h : r.onEvent event s = (p, r', s')) : r'.Yields lane p s' := by
  unfold onEvent at h
  split at h
  · cases h
    exact .waits ht
  rename_i hready
  have hrun : r.status = .running := by
    simp only [Bool.or_eq_true, not_or, decide_eq_true_eq, Decidable.not_not] at hready
    exact hready.1
  split at h
  · cases h
    exact .waits ht
  split at h
  · split at h
    · cases h
      exact Course.conclude_yields ht.home
    · rename_i hf
      exact check_yields
        (ht.of_same (Stage.holdings_of_calms (fun _ => forward_calms hf) lane)) hrun h
  · exact check_yields ht hrun h

theorem resume_yields (ht : r.Tends lane s) (h : r.resume s = (p, r', s')) :
    r'.Yields lane p s' := by
  unfold resume at h
  split at h
  · cases h
    exact .waits ht
  rename_i hstatus
  have hrun : r.status = .running := by simpa using hstatus
  split at h
  · cases h
    exact .waits ht
  split at h
  · rename_i hlost
    exact enter_yields ht.home hrun (ht.free_of_lost hlost) h
  split at h
  · exact check_yields ht hrun h
  · cases h
    exact Course.conclude_yields ht.home

end MachineRun

/-! ## Engines -/

namespace Engine

variable {lane : Lane} {e e' : Engine} {s s' : Stage} {p : Progress}

theorem start_yields (hr : e.RunsIn lane) (hfree : s.slots.holdings lane = [])
    (h : e.start s = .ok (p, e', s')) : e'.course.Yields lane p s' := by
  cases e with
  | script r =>
    obtain ⟨_, hs, he⟩ := Except.map_eq_ok h
    cases he
    exact ScriptRun.start_yields hr hfree hs
  | machine r =>
    obtain ⟨_, hs, he⟩ := Except.map_eq_ok h
    cases he
    exact MachineRun.start_yields hr hfree hs

theorem onEvent_yields (ht : e.course.Tends lane s) (event : Event) :
    (e.onEvent event s).2.1.course.Yields lane (e.onEvent event s).1 (e.onEvent event s).2.2 := by
  cases e with
  | script r => exact ScriptRun.onEvent_yields ht (Eq.refl (r.onEvent event s))
  | machine r => exact MachineRun.onEvent_yields ht (Eq.refl (r.onEvent event s))

theorem resume_yields (ht : e.course.Tends lane s) :
    (e.resume s).2.1.course.Yields lane (e.resume s).1 (e.resume s).2.2 := by
  cases e with
  | script r => exact ScriptRun.resume_yields ht (Eq.refl (r.resume s))
  | machine r => exact MachineRun.resume_yields ht (Eq.refl (r.resume s))

theorem retireCurrent_tends (ht : e.course.Tends lane s) :
    (e.retireCurrent s).1.course.Tends lane (e.retireCurrent s).2 := by
  simp only [retireCurrent, withCourse_course]
  exact Course.retireCurrent_tends ht

/-- Whatever the lane held, an engine that stops leaves it free. -/
theorem stop_tends (hr : e.RunsIn lane) (s : Stage) :
    (e.stop s).1.course.Tends lane (e.stop s).2 ∧ (e.stop s).1.course.step = none := by
  simp only [stop, withCourse_course]
  exact ⟨(Course.close_yields hr _ .waiting rfl).tends, rfl⟩

theorem restart_yields (hr : e.RunsIn lane) (s : Stage) :
    (e.restart s).2.1.course.Yields lane (e.restart s).1 (e.restart s).2.2 := by
  obtain ⟨hstopped, hstep⟩ := stop_tends hr s
  have hfree := hstopped.free hstep
  simp only [restart]
  split
  · rename_i result hstart
    refine start_yields ?_ ?_ hstart
    · exact hstopped.home
    · exact hfree
  · exact ⟨hstopped.of_same rfl, fun _ => hstep⟩

end Engine

end Conductor
