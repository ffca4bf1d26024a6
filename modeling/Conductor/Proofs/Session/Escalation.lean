import Conductor.Proofs.Fault.Selection
import Conductor.Proofs.Session.Calls

/-!
Escalation: the fault of a handler that fails is offered to the tables further out, until a
handler takes it or none is left. Each failure moves it at least one table outwards, so the chain
never outruns the tables. Whether a response is open to the fault is judged anew each time, by the
children that are attached once the failed handler is gone.
-/

namespace Conductor

namespace Scene

variable {c : Scene} {f : Fault} {target : Target} {d : Disposition}

@[simp] theorem endHandler_responses (c : Scene) (active : ActiveHandler) (phase : Phase) :
    (c.endHandler active phase).session.faults.responses = c.session.faults.responses := by
  simp only [endHandler, map, Session.advancePhase, Session.popScope, Dispatch.advance_responses]
  rfl

/-- The handler that was started is that of the target, and no response has changed. -/
theorem startHandler_target {p : Progress} {c' : Scene} {active : ActiveHandler}
    (h : c.startHandler target f d = (p, c')) (ha : c'.session.faults.active = some active) :
    active.table = target.table ∧ active.entry = target.entry ∧ active.fault = f ∧
      c'.session.faults.responses = c.session.faults.responses := by
  have hresponses : ((c.ready target f d).install target f).session.faults.responses =
      c.session.faults.responses := by
    have htriggered := c.session.faults.advance_responses target.table target.entry .triggered
    have hadvanced :=
      (Dispatch.advance_responses _ target.table target.entry .handling).trans htriggered
    rw [← ready_faults c target f d] at hadvanced ⊢
    exact hadvanced
  rw [startHandler_eq] at h
  split at h
  · cases h
    cases ha
    exact ⟨rfl, rfl, rfl, hresponses⟩
  · cases h
    cases ha
    exact ⟨rfl, rfl, rfl, hresponses⟩

theorem escalate_some {active : ActiveHandler} {next : Target} {c' : Scene}
    (h : c.escalate active = (some next, c')) :
    c'.session.faults.responses = c.session.faults.responses ∧
      c'.session.faults.Nearest active.fault (c'.session.inReach active.fault)
        (active.table + 1) next := by
  obtain rfl : (c.escalate active).2 = c' := congrArg Prod.snd h
  refine ⟨endHandler_responses c active .escalated, ?_⟩
  exact Dispatch.selectFrom_eq_some_iff.mp (congrArg Prod.fst h)

/-- Fuel that counts the tables from a target's on is as good as any more. -/
theorem engage_enough (fuel fuel' : Nat) {c : Scene} {target : Target} {d : Disposition}
    (hpos : 0 < fuel) (hpos' : 0 < fuel')
    (hn : c.session.faults.tables.length ≤ target.table + fuel)
    (hn' : c.session.faults.tables.length ≤ target.table + fuel') :
    engage fuel c target f d = engage fuel' c target f d := by
  induction fuel generalizing fuel' c target d with
  | zero => exact absurd hpos (Nat.lt_irrefl 0)
  | succ fuel ih =>
    obtain ⟨fuel', rfl⟩ := Nat.exists_eq_succ_of_ne_zero (Nat.ne_of_gt hpos')
    cases hs : c.startHandler target f d with
    | mk p c₁ =>
      obtain ⟨_, _, active, hactive, _⟩ := startHandler_ok hs
      obtain ⟨htable, _, _, hresponses⟩ := startHandler_target hs hactive
      simp only [engage, hs, hactive]
      cases p with
      | waiting | advanced | finished => rfl
      | failed error =>
        simp only
        split
        · rename_i next c₂ he
          obtain ⟨hresponses₂, hnearest⟩ := escalate_some he
          have hlength := Dispatch.length_congr (hresponses₂.trans hresponses)
          have hout := hnearest.outwards
          have hlt := hnearest.lt
          refine ih fuel' ?_ ?_ ?_ ?_
          all_goals omega
        · rfl

/-- What becomes of the fault of a handler that has failed. -/
def outwards (c : Scene) (active : ActiveHandler) : Handling × Scene :=
  match c.escalate active with
  | (some next, c) => c.handle next active.fault .triggered
  | (none, c) => (.lost (c.exhaust active.fault).1, (c.exhaust active.fault).2)

theorem outwards_some {active : ActiveHandler} {next : Target} {c' : Scene}
    (h : c.escalate active = (some next, c')) :
    c.outwards active = c'.handle next active.fault .triggered := by
  unfold outwards
  rw [h]

theorem outwards_none {active : ActiveHandler} {c' : Scene}
    (h : c.escalate active = (none, c')) :
    c.outwards active = (.lost (c'.exhaust active.fault).1, (c'.exhaust active.fault).2) := by
  unfold outwards
  rw [h]

/-- A handler that fails at its start sends its fault outwards. -/
theorem handle_failed {error : Error} {c' : Scene} {active : ActiveHandler}
    (h : c.startHandler target f d = (.failed error, c'))
    (ha : c'.session.faults.active = some active) :
    c.handle target f d = c'.outwards active := by
  obtain ⟨htable, _, hfault, hresponses⟩ := startHandler_target h ha
  unfold handle
  simp only [engage, h, ha]
  split
  · rename_i next c₂ he
    obtain ⟨hresponses₂, hnearest⟩ := escalate_some he
    have hlength := Dispatch.length_congr (hresponses₂.trans hresponses)
    have hlt := hnearest.lt
    rw [outwards_some he, hfault]
    refine engage_enough _ _ ?_ ?_ ?_ ?_
    all_goals omega
  · rename_i c₂ he
    rw [outwards_none he, hfault]

/-- So does one that fails later. -/
theorem settleHandler_failed (c : Scene) (active : ActiveHandler) (error : Error) :
    c.settleHandler active (.failed error) =
      (c.outwards active).2.conclude (c.outwards active).1 := by
  simp only [settleHandler]
  split
  · rename_i next c' he
    rw [outwards_some he]
  · rename_i c' he
    rw [outwards_none he]
    rfl

theorem handleEvent_failed {active : ActiveHandler} {e : Event} {error : Error} {engine : Engine}
    {s : Stage} (hr : c.session.isRunning = true) (ha : c.session.faults.active = some active)
    (he : ¬ (e.task = c.session.root.id ∧ e.name.isTerminal))
    (hfail : active.engine.onEvent e (c.hear e).stage = (.failed error, engine, s)) :
    c.handleEvent e =
      ((c.hear e).withHandler active engine s).settleHandler { active with engine }
        (.failed error) := by
  unfold handleEvent
  rw [if_neg (by simp [hr])]
  extract_lets c₁
  have he₁ : ¬ (e.task = c₁.session.root.id ∧ e.name.isTerminal) := he
  have ha₁ : c₁.session.faults.active = some active := ha
  have hfail₁ : active.engine.onEvent e c₁.stage = (.failed error, engine, s) := hfail
  rw [if_neg he₁]
  simp only [ha₁, hfail₁]
  rfl

/-- The response to which the fault of a failed handler is to go, if it is open to responses as
the given session has it. -/
def Outward (c : Scene) (active : ActiveHandler) (s : Session) (next : Target) : Prop :=
  c.session.faults.Nearest active.fault (s.inReach active.fault) (active.table + 1) next

theorem escalate_eq_some_iff {active : ActiveHandler} {next : Target} :
    (c.escalate active).1 = some next ↔ c.Outward active (c.escalate active).2.session next := by
  have hsame : (c.escalate active).1 = c.session.faults.selectFrom active.fault (active.table + 1)
      ((c.escalate active).2.session.inReach active.fault) :=
    Dispatch.selectFrom_congr (endHandler_responses c active .escalated)
  rw [hsame]
  exact Dispatch.selectFrom_eq_some_iff

theorem escalate_eq_none_iff {active : ActiveHandler} :
    (c.escalate active).1 = none ↔
      ∀ next, ¬ c.Outward active (c.escalate active).2.session next := by
  constructor
  · intro h next hnext
    rw [escalate_eq_some_iff.mpr hnext] at h
    cases h
  · intro h
    cases he : (c.escalate active).1 with
    | none => rfl
    | some next => exact absurd (escalate_eq_some_iff.mp he) (h next)

end Scene

/-- Sessions agree on a fault when the same tasks that it involves are attached. -/
theorem Session.inReach_congr {s s' : Session} {f : Fault} (hroot : s.root.id = s'.root.id)
    (h : ∀ task, f.involves task = true →
      s.core.slots.isChild task = s'.core.slots.isChild task) :
    s.inReach f = s'.inReach f := by
  have horigin : s.core.slots.isChild f.origin = s'.core.slots.isChild f.origin :=
    h _ (by simp [Fault.involves])
  have hany : ∀ s : Session, (s.core.slots.children.any fun c => f.involves c.id) = true ↔
      ∃ task, f.involves task = true ∧ s.core.slots.isChild task = true := by
    intro s
    simp only [Slots.children, Slots.isChild, List.any_eq_true, List.mem_map, beq_iff_eq]
    constructor
    · rintro ⟨_, ⟨slot, hslot, rfl⟩, hf⟩
      exact ⟨_, hf, slot, hslot, rfl⟩
    · rintro ⟨_, hf, slot, hslot, rfl⟩
      exact ⟨_, ⟨slot, hslot, rfl⟩, hf⟩
  have hchildren : (s.core.slots.children.any fun c => f.involves c.id) =
      s'.core.slots.children.any fun c => f.involves c.id := by
    rw [Bool.eq_iff_iff, hany, hany]
    constructor
    · rintro ⟨task, hf, hc⟩
      exact ⟨task, hf, (h task hf).symm.trans hc⟩
    · rintro ⟨task, hf, hc⟩
      exact ⟨task, hf, (h task hf).trans hc⟩
  funext reach
  cases reach with
  | direct => simp only [inReach, inReach.near, hroot, horigin]
  | propagating => simp only [inReach, inReach.near, hroot, horigin, hchildren]

open Scene in
/-- A handler that fails, at its start or later, sends its fault to the response of the nearest
table further out that is open to it as the session stands now, and the session fails exactly when
there is none. This is the response that was open to the fault when it was delivered exactly when
that one is still open and no nearer one has become so; it is, as long as the same tasks that the
fault involves are attached. -/
theorem escalation_nearest (c : Scene) (active : ActiveHandler) (delivered : Session) :
    (∀ {b : Scene} {target f d error}, b.startHandler target f d = (.failed error, c) →
      c.session.faults.active = some active →
        active.table = target.table ∧ active.fault = f ∧
          b.handle target f d = c.outwards active) ∧
    (∀ {b : Scene} {a e error engine s}, b.session.isRunning = true →
      b.session.faults.active = some a → ¬ (e.task = b.session.root.id ∧ e.name.isTerminal) →
      a.engine.onEvent e (b.hear e).stage = (.failed error, engine, s) →
      c = (b.hear e).withHandler a engine s → active = { a with engine } →
        b.handleEvent e = (c.outwards active).2.conclude (c.outwards active).1) ∧
    let ended := (c.escalate active).2
    (∀ next, c.Outward active ended.session next →
      c.outwards active = ended.handle next active.fault .triggered) ∧
    ((∀ next, ¬ c.Outward active ended.session next) →
      (c.outwards active).1 = .lost (.failed .escalationExhausted) ∧
        (c.outwards active).2.session.status = .failed .escalationExhausted) ∧
    ((∀ next, c.Outward active delivered next → (c.escalate active).1 = some next) ↔
      ∀ next, c.Outward active delivered next → c.Outward active ended.session next) ∧
    (delivered.root.id = ended.session.root.id →
      (∀ task, active.fault.involves task = true →
        delivered.core.slots.isChild task = ended.session.core.slots.isChild task) →
      ∀ next, c.Outward active delivered next → (c.escalate active).1 = some next) := by
  refine ⟨?_, ?_, ?_⟩
  · intro b target f d error h ha
    obtain ⟨htable, _, hfault, _⟩ := startHandler_target h ha
    exact ⟨htable, hfault, handle_failed h ha⟩
  · rintro b a e error engine s hr ha he hfail rfl rfl
    rw [handleEvent_failed hr ha he hfail]
    exact settleHandler_failed ..
  · intro ended
    refine ⟨?_, ?_, ?_, ?_⟩
    · intro next hnext
      exact outwards_some (Prod.ext (escalate_eq_some_iff.mpr hnext) rfl)
    · intro hnone
      have hended : c.escalate active = (none, ended) :=
        Prod.ext (escalate_eq_none_iff.mpr hnone) rfl
      rw [outwards_none hended]
      exact ⟨rfl, rfl⟩
    · exact forall₂_congr fun next _ => escalate_eq_some_iff
    · intro hroot hsame next hnext
      refine escalate_eq_some_iff.mpr ?_
      unfold Outward at hnext ⊢
      rwa [← Session.inReach_congr hroot hsame]

/-! ## A sample -/

/-- A response with a handler of its own ahead of a careful one. -/
def ResponseTable.rash (instructions : List Instruction) (replaces : Bool) : ResponseTable :=
  .ofResponses "haste"
    [⟨"rush", .any, .script ⟨"rusher", [], instructions⟩, 0, .direct, .goOn, replaces⟩]

/-- A running session whose task has a rash response ahead of a careful one. -/
def Scene.rash (instructions : List Instruction) (replaces : Bool) : Scene :=
  Scene.after ⟨(Session.sample.withTable (.rash instructions replaces)).withTable .sample, .sample⟩
    [.start]

/-- A fault of the task of the sample. -/
def Fault.ofTask : Fault := ⟨⟨"task-2"⟩, "jam", "", []⟩

/-- The response behind a rash one. -/
def Target.careful : Target :=
  ⟨1, 0, ⟨"mend", .any, .script ⟨"mender", [], [.wait "pause" (.leaf (.emitted .root ⟨"go"⟩))]⟩, 0,
    .direct, .goOn, false⟩⟩

def Target.rush (instructions : List Instruction) (replaces : Bool) : Target :=
  ⟨0, 0, ⟨"rush", .any, .script ⟨"rusher", [], instructions⟩, 0, .direct, .goOn, replaces⟩⟩

/-- Instructions that fail once the root is told to go on. -/
def Instruction.reluctant : List Instruction :=
  [.wait "stay" (.not (.leaf (.emitted .root ⟨"go"⟩)))]

open Scene in
/-- A rash handler that fails at its start leaves the fault to the careful one, and one that fails
on an event sends it outwards then. -/
theorem escalation_nearest_unreplaced :
    (let c := Scene.rash [] false
      let c' := (c.startHandler (.rush [] false) .ofTask .triggered).2
      ∃ active, c'.session.faults.active = some active ∧
        c.handle (.rush [] false) .ofTask .triggered = c'.outwards active ∧
          (c'.escalate active).1 = some .careful) ∧
    (let c := ((Scene.rash Instruction.reluctant false).deliver (.fault .ofTask)).2
      ∃ active engine s, c.session.faults.active = some active ∧
        active.engine.onEvent .go (c.hear .go).stage =
          (.failed (.instructionFailed 0), engine, s) ∧
        let (handling, c') :=
          ((c.hear .go).withHandler active engine s).outwards { active with engine }
        c.handleEvent .go = c'.conclude handling) := by
  constructor
  · intro c c'
    have hfail : c.startHandler (.rush [] false) .ofTask .triggered = (.failed .emptyScript, c') :=
      Prod.ext (by decide) rfl
    obtain ⟨_, _, active, ha, hf⟩ := startHandler_ok hfail
    obtain ⟨hstart, _, _, _, _, hunchanged⟩ := escalation_nearest c' active c.session
    obtain ⟨htable, hfault, hhandle⟩ := hstart hfail ha
    refine ⟨active, ha, hhandle, hunchanged rfl (fun _ _ => rfl) _ ?_⟩
    unfold Outward
    rw [htable, hfault, ← Dispatch.selectFrom_eq_some_iff]
    decide
  · intro c
    obtain ⟨active, ha⟩ : ∃ active, c.session.faults.active = some active :=
      Option.isSome_iff_exists.mp (by decide)
    have hprogress : (c.session.faults.active.map fun active =>
        (active.engine.onEvent .go (c.hear .go).stage).1) =
          some (.failed (.instructionFailed 0)) := by decide
    rw [ha] at hprogress
    have hfail : active.engine.onEvent .go (c.hear .go).stage = (.failed (.instructionFailed 0),
        (active.engine.onEvent .go (c.hear .go).stage).2) :=
      Prod.ext (Option.some.inj hprogress) rfl
    obtain ⟨_, hevent, _⟩ := escalation_nearest
      ((c.hear .go).withHandler active _ _) { active with engine := _ } c.session
    exact ⟨active, _, _, ha, hfail, hevent (by decide) ha (by decide) hfail rfl rfl⟩

/-- When the rash response takes the task away on which the fault occurred, the careful response
that was open to the fault is passed over. -/
theorem escalation_misses_replaced_origin :
    let c := Scene.rash [] true
    let c' := (c.startHandler (.rush [] true) .ofTask .triggered).2
    c.session.isRunning = true ∧
      c.session.faults.decide .ofTask (c.session.inReach .ofTask) = .activate (.rush [] true) ∧
      (c.startHandler (.rush [] true) .ofTask .triggered).1 = .failed .emptyScript ∧
      (∃ active, c'.session.faults.active = some active ∧
        c'.Outward active c.session .careful) ∧
      (c.deliver (.fault .ofTask)).1 = .failed .escalationExhausted := by
  intro c c'
  have hfail : c.startHandler (.rush [] true) .ofTask .triggered = (.failed .emptyScript, c') :=
    Prod.ext (by decide) rfl
  obtain ⟨_, _, active, ha, _⟩ := Scene.startHandler_ok hfail
  obtain ⟨htable, _, hfault, _⟩ := Scene.startHandler_target hfail ha
  refine ⟨by decide, by decide, congrArg Prod.fst hfail, ⟨active, ha, ?_⟩, by decide⟩
  unfold Scene.Outward
  rw [htable, hfault, ← Dispatch.selectFrom_eq_some_iff]
  decide

end Conductor
