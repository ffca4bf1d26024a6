import Conductor.Proofs.Engine.Passages
import Mathlib.Data.List.Forall2

/-!
Strides. One delivery takes an engine over one guard at most: a machine takes one transition, and a
script leaves the instruction that was active and then goes on only over instructions that are skipped or
are left as soon as they are entered. The guards of a step that was just entered are not weighed yet. So
it makes no difference to the delivery what they are, except to what the engine waits for.
-/

namespace Conductor

/-- What is delivered to an engine: an event, or that a suspension is over. -/
def Order.delivery : Option Event → Order
  | some e => hear e
  | none => resume

/-- The record of a step that was active and was left by its exit guard or by a transition. -/
inductive Engine.Leaves : Engine → Step → Prop where
  | advanced {r : ScriptRun} {i : Instruction} {task : Option TaskId} {via : Bool} :
    r.script.instructions[r.pc]? = some i →
    Leaves (.script r) (.advanced r.pc i.label task via)
  | transition {r : MachineRun} {state : State} {t : Transition} {position : Nat} {via : Bool} :
    r.active? = some state → state.transitions[position]? = some t →
    Leaves (.machine r) (.transition state.id t.target position via)

/-- The record of an instruction that was passed without weighing an exit guard. -/
inductive Script.Passes (script : Script) : Step → Prop where
  | skipped {pc : Nat} {i : Instruction} :
    script.instructions[pc]? = some i → Passes script (.skipped pc i.label)
  | advanced {pc : Nat} {i : Instruction} {task : Option TaskId} {via : Bool} :
    script.instructions[pc]? = some i → i.exitGuard = .always →
    Passes script (.advanced pc i.label task via)

/-- The record of a step that was passed without weighing a guard by which it is left. A machine has
none. -/
def Engine.Passes (e : Engine) (record : Step) : Prop :=
  match e with
  | .script r => r.script.Passes record
  | .machine _ => False

/-! ## Models that differ in their guards -/

/-- The same instruction, except for an exit guard that is to be weighed. -/
structure Instruction.Alike (i j : Instruction) : Prop where
  same : j = { i with exitGuard := j.exitGuard }
  always : i.exitGuard = .always ↔ j.exitGuard = .always

/-- The same script, except for exit guards that are to be weighed. -/
structure Script.Alike (a b : Script) : Prop where
  name : b.name = a.name
  instructions : List.Forall₂ Instruction.Alike a.instructions b.instructions

/-- The same state, except for its transitions. -/
def State.Alike (a b : State) : Prop := b = { a with transitions := b.transitions }

/-- The same machine, except for the transitions of its states. -/
structure Machine.Alike (a b : Machine) : Prop where
  name : b.name = a.name
  states : List.Forall₂ State.Alike a.states b.states

/-- The same stage, except for what lanes wait for and for the variables that are read to know it. -/
def Stage.Alike (s t : Stage) : Prop := ∃ interests scopes, t = { s with interests, scopes }

/-- The same came of two runs, the second of which is the first with a change in its model. -/
structure SameBut {Run : Type} (change : Run → Run) (x y : Progress × Run × Stage) : Prop where
  progress : y.1 = x.1
  run : y.2.1 = change x.2.1
  stage : x.2.2.Alike y.2.2

def ScriptRun.withScript (other : Script) (r : ScriptRun) : ScriptRun := { r with script := other }

def MachineRun.withMachine (other : Machine) (r : MachineRun) : MachineRun :=
  { r with machine := other }

/-- Entering steps comes to the same whatever guards there are to be weighed in the steps. -/
def Threshold.Blind : Threshold → Prop
  | .script r s => ∀ other, r.script.Alike other →
    SameBut (ScriptRun.withScript other) (r.enter s) ((r.withScript other).enter s)
  | .machine id r s => ∀ other, r.machine.Alike other →
    SameBut (MachineRun.withMachine other) (r.enter id s) ((r.withMachine other).enter id s)

/-! ## What is waited for -/

namespace Instruction.Alike

variable {i j : Instruction}

theorem label (h : i.Alike j) : j.label = i.label := by rw [h.same]

theorem source (h : i.Alike j) : j.source = i.source := by rw [h.same]

theorem entryGuard (h : i.Alike j) : j.entryGuard = i.entryGuard := by rw [h.same]

theorem eq_of_always (h : i.Alike j) (halways : i.exitGuard = .always) : j = i := by
  rw [h.same, h.always.mp halways, ← halways]

end Instruction.Alike

namespace Stage

variable {s t u : Stage}

theorem Alike.refl (s : Stage) : s.Alike s := ⟨s.interests, s.scopes, rfl⟩

theorem Alike.symm (h : s.Alike t) : t.Alike s := by
  obtain ⟨_, _, rfl⟩ := h
  exact ⟨s.interests, s.scopes, rfl⟩

theorem Alike.trans (h : s.Alike t) (h' : t.Alike u) : s.Alike u := by
  obtain ⟨_, _, rfl⟩ := h
  obtain ⟨interests, scopes, rfl⟩ := h'
  exact ⟨interests, scopes, rfl⟩

theorem readAll_alike (names : List String) (values : Dict String Value) (s : Stage) :
    s.Alike (readAll names values s).2 := by
  induction names generalizing values s with
  | nil => exact .refl s
  | cons name rest ih =>
    simp only [readAll]
    split
    · rename_i hr
      obtain ⟨scopes, -, rfl⟩ := read_ok hr
      exact Alike.trans ⟨s.interests, scopes, rfl⟩ (ih ..)
    · exact ih ..

theorem interestsOf_alike (focus : Focus) (guards : List Guard) (wanted : KeySet Interest)
    (s : Stage) : s.Alike (interestsOf focus guards wanted s).2 := by
  induction guards generalizing wanted s with
  | nil => exact .refl s
  | cons g rest ih => exact (readAll_alike g.vars .empty s).trans (ih ..)

/-- What is waited for makes no other difference to a stage. -/
theorem subscribe_alike (s : Stage) (lane : Lane) (guards : List Guard) (focus : Focus)
    (own : Option TaskId) : s.Alike (s.subscribe lane guards focus own) := by
  obtain ⟨interests, scopes, h⟩ := interestsOf_alike focus guards .empty s
  simp only [subscribe]
  rw [h]
  exact ⟨_, scopes, rfl⟩

end Stage

theorem Course.subscribe_alike (c : Course) (guards : List Guard) (s : Stage) :
    s.Alike (c.subscribe guards s) := by
  unfold subscribe
  split
  · exact s.subscribe_alike ..
  · exact .refl s

/-- An engine came to a threshold over one guard at most. -/
structure Engine.Nears (e : Engine) (t : Threshold) : Prop where
  model : t.engine.model = e.model
  activation : t.engine.course.activation = e.course.activation
  path : ∃ first, first.length ≤ 1 ∧ (∀ x ∈ first, e.Leaves x) ∧
    t.engine.course.path = e.course.path ++ first

namespace Engine

variable {e : Engine} {t : Threshold}

theorem Nears.over {record : Step} (hrecord : e.Leaves record)
    (hpath : t.engine.course.path = e.course.path ++ [record])
    (hactivation : t.engine.course.activation = e.course.activation)
    (hmodel : t.engine.model = e.model) : e.Nears t :=
  ⟨hmodel, hactivation, [record], Nat.le_refl _, by simpa using hrecord, hpath⟩

theorem Nears.at (h : t.engine = e) : e.Nears t := by
  subst h
  exact ⟨rfl, rfl, [], Nat.zero_le _, by simp, (List.append_nil _).symm⟩

end Engine

/-! ## Scripts -/

namespace ScriptRun

variable {r r' r₁ : ScriptRun} {s s' : Stage} {p : Progress} {event : Option Event} {t : Threshold}

theorem leaves?_nears (h : r.leaves? event s = some t) : (Engine.script r).Nears t := by
  unfold leaves? at h
  split at h
  · rename_i i step hi hstep
    split at h
    · split at h
      · rename_i hexit
        cases h
        obtain ⟨step, -, rfl⟩ := exit_leaves hexit
        exact .over (.advanced hi) rfl rfl rfl
      · cases h
    · cases h
  · cases h

theorem hears?_nears {e : Event} (h : r.hears? e s = some t) : (Engine.script r).Nears t := by
  unfold hears? at h
  split at h
  · cases h
  · exact leaves?_nears h

theorem goesOn?_nears (h : r.goesOn? s = some t) : (Engine.script r).Nears t := by
  unfold goesOn? at h
  split at h
  · cases h
  split at h
  · cases h
    exact .at rfl
  · exact leaves?_nears h

/-- Instructions that are entered leave records only where they are passed. -/
theorem enterFrom_passes {instructions : List Instruction}
    (hr : instructions = r.script.instructions.drop r.pc) (s : Stage) :
    ∃ rest, (enterFrom instructions r s).2.1.path = r.path ++ rest ∧
      ∀ x ∈ rest, r.script.Passes x := by
  induction instructions generalizing r s with
  | nil => exact ⟨[], (List.append_nil _).symm, by simp⟩
  | cons i rest ih =>
    obtain ⟨hi, hnext⟩ := of_cons_eq_drop hr
    -- what is passed first stands before what is passed later
    have hfirst : ∀ {r₁ : ScriptRun} {record : Step} (s₁ : Stage), r₁.script = r.script →
        r₁.pc = r.pc + 1 → r₁.path = r.path ++ [record] → r.script.Passes record →
        ∃ later, (enterFrom rest r₁ s₁).2.1.path = r.path ++ later ∧
          ∀ x ∈ later, r.script.Passes x := by
      intro r₁ record s₁ hscript hpc hpath hpasses
      have hrest : rest = r₁.script.instructions.drop r₁.pc := by rw [hscript, hpc, hnext]
      obtain ⟨later, hlater, hall⟩ := ih hrest s₁
      rw [hscript] at hall
      refine ⟨record :: later, by simp [hlater, hpath], ?_⟩
      exact List.forall_mem_cons.mpr ⟨hpasses, hall⟩
    have hnone : ∃ later, r.path = r.path ++ later ∧ ∀ x ∈ later, r.script.Passes x :=
      ⟨[], (List.append_nil _).symm, by simp⟩
    simp only [enterFrom]
    split
    · rename_i t _
      exact hfirst _ rfl rfl rfl (.skipped hi)
    · split
      · exact hnone
      · split
        · rename_i halways
          split
          · rename_i hexit
            obtain rfl | rfl := exit_error_run hexit
            · exact hnone
            · exact hnone
          · rename_i hexit
            obtain ⟨step, -, rfl⟩ := exit_leaves hexit
            exact hfirst _ rfl rfl rfl (.advanced hi halways)
        · exact hnone

/-- Leaving an instruction does not look at the others. -/
theorem exit_withScript (r : ScriptRun) (other : Script) (i : Instruction) (event : Option Event)
    (s : Stage) : (r.withScript other).exit i event s = ((r.exit i event s).1,
      (r.exit i event s).2.1.withScript other, (r.exit i event s).2.2) := by
  have houtput : recordOutput (r.withScript other) = recordOutput r := rfl
  unfold exit
  rw [houtput]
  dsimp only [withScript]
  split
  · rfl
  · rename_i step _
    rcases exitActions (step.focus r.last) step.task i.onExit (r.recordOutput i.label step event s)
      with ⟨result, t⟩
    cases result <;> rfl

theorem exit_script (r : ScriptRun) (i : Instruction) (event : Option Event) (s : Stage) :
    (r.exit i event s).2.1.script = r.script :=
  congrArg (fun result : Except Error Unit × ScriptRun × Stage => result.2.1.script)
    (r.exit_withScript r.script i event s)

theorem fail_sameBut {other : Script} (hother : r.script.Alike other) (e : Error) (s : Stage) :
    SameBut (withScript other) (r.fail e s) ((r.withScript other).fail e s) := by
  refine ⟨rfl, rfl, ?_⟩
  simp only [fail, withScript, hother.name]
  exact .refl _

theorem enterFrom_sameBut {instructions others : List Instruction} {other : Script}
    (hall : List.Forall₂ Instruction.Alike instructions others) (hother : r.script.Alike other)
    (s : Stage) : SameBut (withScript other) (enterFrom instructions r s)
      (enterFrom others (r.withScript other) s) := by
  induction hall generalizing r s with
  | nil =>
    refine ⟨?_, rfl, ?_⟩
    · simp only [enterFrom, finish, withScript, hother.name, hother.instructions.length_eq]
    · simp only [enterFrom, finish, withScript, hother.name]
      exact .refl _
  | @cons i j instructions others hij _ ih =>
    have hmay : (r.entering.withScript other).mayEnter j s = r.entering.mayEnter i s := by
      unfold mayEnter
      rw [hij.entryGuard]
      simp only [entering, withScript]
    simp only [enterFrom, skip, entering, withScript, hij.label, hij.source] at hmay ⊢
    rw [hmay]
    rcases mayEnter { r with toCourse := r.toCourse.enterStep } i s with ⟨may, t⟩
    cases may with
    | false => exact ih (r := (r.entering.skip i t).1) hother _
    | true =>
      dsimp only
      rcases r.enterStep.takeTask i.label i.source t with ⟨result, u⟩
      cases result with
      | error e => exact fail_sameBut (r := r.entering) hother e u
      | ok task =>
        dsimp only
        by_cases halways : i.exitGuard = .always
        · obtain rfl := hij.eq_of_always halways
          let active : ScriptRun := { r.entering with
            step := some ⟨r.entering.key j.label, task, s.log.cursor⟩ }
          have hexit := active.exit_withScript other j none u
          have hscript := active.exit_script j none u
          simp only [active, entering, withScript] at hexit hscript
          rw [if_pos halways, if_pos halways, hexit]
          generalize exit _ j none u = left at hscript ⊢
          obtain ⟨result, r₁, u₁⟩ := left
          have hother₁ : r₁.script.Alike other := hscript ▸ hother
          cases result with
          | error e => exact fail_sameBut hother₁ e u₁
          | ok _ => exact ih hother₁ u₁
        · rw [if_neg halways, if_neg (mt hij.always.mpr halways)]
          refine ⟨rfl, rfl, ?_⟩
          dsimp only
          exact (Course.subscribe_alike ..).symm.trans (Course.subscribe_alike ..)

/-- Nothing has been decided in an instruction that was just entered. -/
theorem enterFrom_memo {instructions : List Instruction} {step : ActiveStep}
    (h : enterFrom instructions r s = (p, r', s')) (hstep : r'.step = some step) :
    r'.memo = .empty := by
  induction instructions generalizing r s with
  | nil =>
    cases h
    cases hstep
  | cons i rest ih =>
    simp only [enterFrom] at h
    split at h
    · exact ih h
    · split at h
      · cases h
        cases hstep
      · split at h
        · split at h
          · cases h
            cases hstep
          · exact ih h
        · cases h
          rfl

end ScriptRun

/-! ## Machines -/

theorem Machine.Alike.state? {a b : Machine} (h : a.Alike b) (id : String) :
    a.state? id = none ∧ b.state? id = none ∨
      ∃ x y, a.state? id = some x ∧ b.state? id = some y ∧ x.Alike y := by
  obtain ⟨-, hstates⟩ := h
  unfold Machine.state?
  generalize a.states = states at hstates ⊢
  generalize b.states = others at hstates ⊢
  induction hstates with
  | nil => exact .inl ⟨rfl, rfl⟩
  | @cons x y _ _ hxy _ ih =>
    have hid : y.id = x.id := by rw [hxy]
    by_cases hx : x.id == id
    · exact .inr ⟨x, y, by simp [hx], by simp [hid, hx], hxy⟩
    · simpa [hx, hid] using ih

namespace MachineRun

variable {r r' : MachineRun} {s s' : Stage} {p : Progress} {state : State} {id : String}
  {t : Threshold}

theorem leaves?_nears (hactive : r.active? = some state) (h : r.leaves? state s = some t) :
    (Engine.machine r).Nears t := by
  unfold leaves? at h
  split at h
  · cases h
  split at h
  · cases h
  split at h
  · rename_i htry
    obtain ⟨i, hi, ht, -⟩ := (tryTransitions_tried htry).fits
    rw [Nat.zero_add] at hi
    subst hi
    unfold crosses? at h
    split at h
    · cases h
      exact .over (.transition hactive ht) rfl rfl rfl
    · cases h
  · cases h

theorem hears?_nears {e : Event} (h : r.hears? e s = some t) : (Engine.machine r).Nears t := by
  unfold hears? at h
  split at h
  · cases h
  split at h
  · cases h
  rename_i state hactive
  split at h
  · split at h
    · exact leaves?_nears hactive h
    · cases h
  · exact leaves?_nears hactive h

theorem goesOn?_nears (h : r.goesOn? s = some t) : (Engine.machine r).Nears t := by
  unfold goesOn? at h
  split at h
  · cases h
  split at h
  · cases h
  rename_i name hname
  split at h
  · cases h
    exact .at rfl
  · obtain ⟨state, hstate, hleaves⟩ := Option.bind_eq_some_iff.mp h
    have hactive : r.active? = some state := by rw [active?, hname, Option.bind_some, hstate]
    exact leaves?_nears hactive hleaves

theorem enter_path (r : MachineRun) (id : String) (s : Stage) :
    (r.enter id s).2.1.path = r.path := by
  unfold enter
  split
  · rfl
  dsimp only
  split
  · rfl
  split <;> rfl

/-- Nothing has been decided in a state that was just entered. -/
theorem enter_memo {step : ActiveStep} (h : r.enter id s = (p, r', s'))
    (hstep : r'.step = some step) : r'.memo = .empty := by
  unfold enter at h
  split at h
  · cases h
    cases hstep
  dsimp only at h
  split at h
  · cases h
    cases hstep
  split at h
  · cases h
    cases hstep
  · cases h
    rfl

theorem fail_sameBut {other : Machine} (hother : r.machine.Alike other) (e : Error) (s : Stage) :
    SameBut (withMachine other) (r.fail e s) ((r.withMachine other).fail e s) := by
  refine ⟨rfl, rfl, ?_⟩
  simp only [fail, withMachine, hother.name]
  exact .refl _

theorem enter_sameBut {other : Machine} (hother : r.machine.Alike other) (id : String) (s : Stage) :
    SameBut (withMachine other) (r.enter id s) ((r.withMachine other).enter id s) := by
  unfold enter
  obtain ⟨hx, hy⟩ | ⟨x, y, hx, hy, hxy⟩ := hother.state? id
  · simp only [withMachine, hx, hy]
    exact fail_sameBut hother _ s
  · have hmarker : y.isFinalMarker = x.isFinalMarker := by rw [hxy]; rfl
    have hid : y.id = x.id := by rw [hxy]
    have hsource : y.source = x.source := by rw [hxy]
    simp only [withMachine, hx, hy, hmarker, hid, hsource]
    split
    · refine ⟨?_, rfl, ?_⟩
      · simp only [finish, hother.name]
      · simp only [finish, hother.name]
        exact .refl _
    · rcases r.enterStep.takeTask x.id x.source s with ⟨result, t⟩
      cases result with
      | error e =>
        let entered : MachineRun := { r with toCourse := r.toCourse.enterStep, state := some id }
        exact fail_sameBut (r := entered) hother e t
      | ok task =>
        refine ⟨rfl, rfl, ?_⟩
        dsimp only
        exact (Course.subscribe_alike ..).symm.trans (Course.subscribe_alike ..)

end MachineRun

/-! ## Engines -/

/-- What one delivery does to an engine. -/
structure Engine.Strides (e : Engine) (result : Progress × Engine × Stage) : Prop where
  /-- One step at most is left by a guard, the one that was active, and it is left before others are
  passed. -/
  path : ∃ first rest, result.2.1.course.path = e.course.path ++ first ++ rest ∧
    first.length ≤ 1 ∧ (∀ x ∈ first, e.Leaves x) ∧ ∀ x ∈ rest, e.Passes x
  /-- Either no step is entered, or else, once all that is weighed was weighed, steps are entered
  without looking at their guards. -/
  blind : result.2.1.course.activation = e.course.activation ∨
    ∃ t : Threshold, t.engine.model = e.model ∧
      t.engine.course.activation = e.course.activation ∧ t.Blind ∧ result = t.enter ∧
      ∀ step, result.2.1.course.step = some step → result.2.1.course.memo = .empty

namespace Engine

/-- Where steps are entered after a delivery, a guard has been passed at most. -/
theorem passage?_nears {e : Engine} {event : Option Event} {s : Stage} {t : Threshold}
    (h : e.passage? (.delivery event) s = some t) : e.Nears t := by
  cases event with
  | some event =>
    cases e with
    | script r => exact ScriptRun.hears?_nears h
    | machine r => exact MachineRun.hears?_nears h
  | none =>
    cases e with
    | script r => exact ScriptRun.goesOn?_nears h
    | machine r => exact MachineRun.goesOn?_nears h

theorem enter_strides {e : Engine} {t : Threshold} (h : e.Nears t) : e.Strides t.enter := by
  obtain ⟨hmodel, hactivation, first, hlength, hleaves, hpath⟩ := h
  cases t with
  | script r₁ s₁ =>
    obtain ⟨rest, hrest, hpasses⟩ := ScriptRun.enterFrom_passes (Eq.refl _) s₁
    refine ⟨⟨first, rest, ?_, hlength, hleaves, ?_⟩, .inr ⟨_, hmodel, hactivation, ?_, rfl, ?_⟩⟩
    · rw [← hpath]
      exact hrest
    · cases e with
      | script r =>
        obtain hscript : r₁.script = r.script := Model.script.inj hmodel
        rw [hscript] at hpasses
        exact hpasses
      | machine r => cases hmodel
    · intro other hother
      have hall := List.forall₂_drop r₁.pc hother.instructions
      exact ScriptRun.enterFrom_sameBut hall hother s₁
    · intro step hstep
      exact ScriptRun.enterFrom_memo (Eq.refl _) hstep
  | machine id r₁ s₁ =>
    refine ⟨⟨first, [], ?_, hlength, hleaves, by simp⟩, .inr ⟨_, hmodel, hactivation, ?_, rfl, ?_⟩⟩
    · rw [List.append_nil, ← hpath]
      exact r₁.enter_path id s₁
    · intro other hother
      exact MachineRun.enter_sameBut hother id s₁
    · intro step hstep
      exact MachineRun.enter_memo (Eq.refl _) hstep

theorem obey_strides (e : Engine) (event : Option Event) (s : Stage) :
    e.Strides (e.obey (.delivery event) s) := by
  cases h : e.passage? (.delivery event) s with
  | none =>
    have hstill := obey_still h
    exact ⟨⟨[], [], by simp [hstill.path], Nat.zero_le _, by simp, by simp⟩, .inl hstill.activation⟩
  | some t =>
    rw [obey_enters h]
    exact enter_strides (passage?_nears h)

/-- In one delivery a machine takes one transition at most. A script leaves one instruction at most by
an exit guard that has to be weighed, and does so first; after that instructions are only skipped or
left as soon as they are entered. The guards of a step that is entered in the delivery are not weighed
in it. -/
theorem one_guard_per_delivery (e : Engine) (s : Stage) :
    (∀ event, e.Strides (e.onEvent event s)) ∧ e.Strides (e.resume s) :=
  ⟨fun event => e.obey_strides (some event) s, e.obey_strides none s⟩

end Engine

end Conductor
