import Conductor.Proofs.Engine.Onward
import Conductor.Proofs.Engine.Tending

/-!
Entering an instruction again. A script whose task was taken away is still in the instruction. When
it goes on it looks at the entry guard as it does on the way in: the instruction is given another
task, or it is passed over.
-/

namespace Conductor

/-- A step is given a task exactly if it is to run one. -/
theorem Course.takeTask_isSome {c : Course} {label : String} {source : Option Source}
    {task : Option Handle} {s s' : Stage} (h : c.takeTask label source s = (.ok task, s')) :
    task.isSome = source.isSome := by
  unfold takeTask at h
  split at h
  · cases h
    rfl
  · obtain ⟨handle, _, rfl⟩ := Except.map_eq_ok (congrArg Prod.fst h)
    rfl

namespace ScriptRun

variable {r r' : ScriptRun} {s s' : Stage} {p : Progress} {i : Instruction}

/-- The step of a script is that of an instruction which is not left at once. Unless a fault handler
took the task of the instruction away, the step has it. -/
def Posed (r : ScriptRun) : Prop :=
  ∀ step, r.step = some step → ∃ i, r.script.instructions[r.pc]? = some i ∧
    i.exitGuard ≠ .always ∧
    (i.source.isSome = true → step.task.isSome = true ∨ r.replaced = true)

theorem Posed.of_no_step (h : r.step = none) : r.Posed :=
  fun _ hs => nomatch h.symm.trans hs

/-- The instruction that comes first from a place on, and the others. -/
theorem of_cons_eq_drop {l rest : List Instruction} {n : Nat} (h : i :: rest = l.drop n) :
    l[n]? = some i ∧ rest = l.drop (n + 1) := by
  constructor
  · rw [← List.head?_drop, ← h]
    rfl
  · rw [← List.tail_drop, ← h]
    rfl

theorem enterFrom_posed {rest : List Instruction} (hrest : rest = r.script.instructions.drop r.pc)
    (h : enterFrom rest r s = (p, r', s')) : r'.Posed := by
  induction rest generalizing r s with
  | nil =>
    cases h
    exact .of_no_step rfl
  | cons i rest ih =>
    obtain ⟨hi, hnext⟩ := of_cons_eq_drop hrest
    simp only [enterFrom, skip] at h
    split at h
    · exact ih hnext h
    · split at h
      · cases h
        exact .of_no_step rfl
      · rename_i task _ htask
        split at h
        · split at h
          · cases h
            exact .of_no_step rfl
          · rename_i hexit
            obtain ⟨hscript, hpc⟩ := exit_moves_on hexit
            refine ih ?_ h
            rw [hscript, hpc]
            exact hnext
        · rename_i hstays
          cases h
          rintro step ⟨⟩
          exact ⟨i, hi, hstays, fun hsource => .inl ((Course.takeTask_isSome htask).trans hsource)⟩

theorem check_posed {event : Option Event} (hr : r.Posed)
    (h : r.check event s = (p, r', s')) : r'.Posed := by
  unfold check at h
  split at h
  · cases h
    exact .of_no_step rfl
  · cases h
    exact hr
  · simp only at h
    split at h
    · split at h
      · cases h
        exact .of_no_step rfl
      · exact enterFrom_posed rfl h
    · cases h
      exact .of_no_step rfl
    · cases h
      exact hr

theorem start_posed (h : r.start s = .ok (p, r', s')) : r'.Posed := by
  unfold start at h
  split at h
  · cases h
  split at h
  · cases h
  · exact enterFrom_posed rfl (Except.ok.inj h)

theorem onEvent_posed {event : Event} (hr : r.Posed) (h : r.onEvent event s = (p, r', s')) :
    r'.Posed := by
  unfold onEvent at h
  split at h
  · cases h
    exact hr
  · exact check_posed hr h

theorem resume_posed (hr : r.Posed) (h : r.resume s = (p, r', s')) : r'.Posed := by
  unfold resume at h
  split at h
  · cases h
    exact hr
  split at h
  · exact enterFrom_posed rfl h
  · exact check_posed hr h

/-! ## Going on without the task -/

/-- The run as it enters an instruction. -/
def entering (r : ScriptRun) : ScriptRun := { r with toCourse := r.toCourse.enterStep }

/-- The run in a step. -/
def standing (r : ScriptRun) (key : SlotKey) (task : Option Handle) (since : Nat) : ScriptRun :=
  { r with step := some ⟨key, task, since⟩ }

theorem enter_cons (hi : r.script.instructions[r.pc]? = some i) (s : Stage) :
    r.enter s = enterFrom (i :: r.script.instructions.drop (r.pc + 1)) r s := by
  obtain ⟨hlt, rfl⟩ := List.getElem?_eq_some_iff.mp hi
  rw [enter, List.drop_eq_getElem_cons hlt]

/-- A script that lost the task of its step enters its instruction once more. -/
theorem resume_replaced (hr : r.status = .running) (hreplaced : r.replaced = true) (s : Stage) :
    r.resume s = r.enter s := by
  unfold resume
  rw [if_neg (by simp [hr]), hreplaced]
  rfl

/-- An instruction whose entry guard is not true is passed over, whatever comes next. -/
theorem enter_skips (hi : r.script.instructions[r.pc]? = some i)
    (hmay : (r.mayEnter i s).1 = false) (h : r.enter s = (p, r', s')) :
    r.path ++ [.skipped r.pc i.label] <+: r'.path := by
  have hskip : r.entering.mayEnter i s = (false, (r.mayEnter i s).2) := Prod.ext hmay rfl
  rw [enter_cons hi, enterFrom] at h
  simp only [entering] at hskip
  simp only [hskip] at h
  exact (enterFrom_onward h).path

/-- An instruction that may be entered is given a task of its own, or else the run fails. -/
theorem enter_resolves {source : Source} (hi : r.script.instructions[r.pc]? = some i)
    (hsource : i.source = some source) (hstays : i.exitGuard ≠ .always)
    (hmay : (r.mayEnter i s).1 = true) :
    r.enter s = match (r.mayEnter i s).2.resolve (r.entering.key i.label) source with
      | (.error e, s₁) => r.entering.fail e s₁
      | (.ok task, s₁) =>
        let active := r.entering.standing (r.entering.key i.label) (some task) s.log.cursor
        (.advanced, active, active.subscribe [i.exitGuard] s₁) := by
  have henter : r.entering.mayEnter i s = (true, (r.mayEnter i s).2) := Prod.ext hmay rfl
  have htake : ∀ s₀ : Stage, r.entering.takeTask i.label i.source s₀ =
      ((s₀.resolve (r.entering.key i.label) source).1.map some,
        (s₀.resolve (r.entering.key i.label) source).2) := by
    intro s₀
    rw [hsource]
    rfl
  rw [enter_cons hi, enterFrom]
  simp only [entering] at henter htake ⊢
  simp only [henter, htake]
  cases (r.mayEnter i s).2.resolve (r.toCourse.enterStep.key i.label) source with
  | mk result s₁ =>
    cases result with
    | error e => rfl
    | ok task =>
      simp only [Except.map, if_neg hstays]
      rfl

end ScriptRun

/-! ## Engines -/

namespace Engine

variable {e e' : Engine} {s s' : Stage}

def Posed : Engine → Prop
  | .script r => r.Posed
  | .machine _ => True

theorem Posed.of_no_step (h : e.course.step = none) : e.Posed := by
  cases e with
  | script r => exact ScriptRun.Posed.of_no_step h
  | machine r => trivial

theorem start_posed {p : Progress} (h : e.start s = .ok (p, e', s')) : e'.Posed := by
  cases e with
  | script r =>
    obtain ⟨_, hs, he⟩ := Except.map_eq_ok h
    cases he
    exact ScriptRun.start_posed hs
  | machine r =>
    obtain ⟨_, _, he⟩ := Except.map_eq_ok h
    cases he
    trivial

theorem retireCurrent_posed (he : e.Posed) (s : Stage) : (e.retireCurrent s).1.Posed := by
  cases e with
  | machine r => trivial
  | script r =>
    show ScriptRun.Posed { r with toCourse := (r.toCourse.retireCurrent s).1 }
    unfold Course.retireCurrent
    split
    · rename_i step hstep
      split
      · -- The task is gone, and the run says so.
        obtain ⟨i, hi, hstays, _⟩ := he step hstep
        exact fun _ _ => ⟨i, hi, hstays, fun _ => .inr rfl⟩
      · exact he
    · exact he

theorem stop_step (e : Engine) (s : Stage) : (e.stop s).1.course.step = none := by
  simp only [stop, withCourse_course]
  rfl

theorem restart_posed (e : Engine) (s : Stage) : (e.restart s).2.1.Posed := by
  have hstopped := stop_step e s
  simp only [restart]
  split
  · rename_i hstart
    exact start_posed hstart
  · exact .of_no_step hstopped

theorem Act.posed (h : e.Act s e' s') (he : e.Posed) : e'.Posed := by
  cases h with
  | start hs => exact start_posed hs
  | onEvent event =>
    cases e with
    | script r => exact ScriptRun.onEvent_posed he (Eq.refl (r.onEvent event s))
    | machine r => trivial
  | resume =>
    cases e with
    | script r => exact ScriptRun.resume_posed he (Eq.refl (r.resume s))
    | machine r => trivial
  | restart => exact restart_posed e s
  | retireCurrent => exact retireCurrent_posed he s
  | stop => exact .of_no_step (stop_step e s)

end Engine

end Conductor
