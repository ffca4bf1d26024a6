import Conductor.Proofs.Engine.FirstMatch
import Conductor.Proofs.Session.Memory

/-!
The choices of machines. What an event makes a machine do is told by the truth that the guard of each
transition has on its own, with the memo and the variables from before the event: whatever the guards
that are tried first read and learn, they do not sway the others.
-/

namespace Conductor

namespace MachineRun

variable {r : MachineRun} {state : State} {step : ActiveStep}

/-- A machine that waits in a state takes the first transition whose guard is true on its own, as the
event goes on record. If there is none, it reports that no transition is applicable exactly when it
is stuck, and otherwise it waits on in the same step with nothing but its memo changed. -/
theorem first_match (h : r.Waits state step) (s₀ : Stage) (e : Event)
    (hf : (r.forwarded state e (s₀.hear e)).1 = .ok ()) :
    let s := s₀.hear e
    let after := r.onEvent e s
    (∀ position t, state.transitions[position]? = some t → r.truthOf step s t = .yes →
      (∀ j u, j < position → state.transitions[j]? = some u → r.truthOf step s u ≠ .yes) →
      ∃ memo s₁, (r.forwarded state e s).2.Reads s₁ ∧ s₁.log = s.log ∧
        Crosses { r with memo } state position t step s₁ after) ∧
    ((∀ t ∈ state.transitions, r.truthOf step s t ≠ .yes) →
      (after.1 = .failed (.noApplicableTransition state.id) ↔ r.Stuck state step s) ∧
      (after.1 ≠ .failed (.noApplicableTransition state.id) →
        after.1 = .waiting ∧ ∃ memo, after.2.1 = { r with memo })) := by
  intro s after
  have hafter : after = r.check state (r.forwarded state e s).2 := h.onEvent_eq hf
  have hagrees : s.Agrees (r.forwarded state e s).2 := forwarded_agrees hf
  have htruth : r.truthOf step (r.forwarded state e s).2 = r.truthOf step s := truthOf_agrees hagrees
  have hstuck : r.Stuck state step (r.forwarded state e s).2 ↔ r.Stuck state step s := by
    unfold Stuck
    rw [htruth, hagrees.log]
  rw [hafter, ← htruth, ← hstuck, ← hagrees.log]
  refine ⟨fun position t ht htrue hbefore => h.check_crosses ht htrue hbefore, fun hnone => ?_⟩
  obtain ⟨hfails, hwaits⟩ := h.check_rests hnone
  refine ⟨⟨fun hfailed => ?_, hfails⟩, fun hother => hwaits fun hs => hother (hfails hs)⟩
  refine Classical.byContradiction fun hs => ?_
  rw [(hwaits hs).1] at hfailed
  cases hfailed

end MachineRun

/-! ## A sample -/

/-- The worker succeeded, and the mode is to run. -/
def Guard.triumphant : Guard := .all [.on .success, .leaf (.equals "mode" (.text "run"))]

/-- A state whose second and third transition both apply when its worker succeeds. -/
def State.choosing : State :=
  ⟨"walk", some (.builder "worker" .empty),
    [⟨.on .failed, "lost", []⟩, ⟨.triumphant, "home", [⟨"mode", .constant (.text "rest")⟩]⟩,
      ⟨.on .stop, "lost", []⟩], [⟨.success, ⟨"walked"⟩⟩], false⟩

def Machine.choosing : Machine :=
  ⟨"patrol", [⟨"mode", none, .constant (.text "run")⟩],
    [.choosing, .home, ⟨"lost", none, [], [], true⟩], "walk"⟩

/-- The step in which the machine waits for its worker. -/
def ActiveStep.choosing : ActiveStep :=
  ⟨⟨.model, "walk", 1⟩, some ⟨Plan.idOf 2, "Worker"⟩, 0⟩

/-- The run of the machine once its first state was entered. -/
def MachineRun.choosing : MachineRun where
  toCourse := { Course.idle .model 1 with
    status := .running
    step := some .choosing
    activation := 1 }
  machine := .choosing
  state := some "walk"

theorem MachineRun.choosing_waits : MachineRun.choosing.Waits .choosing .choosing :=
  ⟨rfl, rfl, rfl, rfl, rfl⟩

/-- When the worker succeeds, the second and the third transition apply and the second is taken. When
the root ticks, none applies and the machine waits on. -/
theorem MachineRun.first_match_choosing :
    let c := Scene.after ⟨.employing (.machine .choosing), .sample⟩ [.start]
    let r := MachineRun.choosing
    let step := ActiveStep.choosing
    c.session.engine = .machine r ∧
      State.choosing.transitions.map (r.truthOf step (c.stage.hear .achieved)) = [.no, .yes, .yes] ∧
      (r.onEvent .achieved (c.stage.hear .achieved)).2.1.path = [.transition "walk" "home" 1 false] ∧
      (∀ t ∈ State.choosing.transitions, r.truthOf step (c.stage.hear .tick) t ≠ .yes) ∧
      (r.onEvent .tick (c.stage.hear .tick)).1 = .waiting := by
  intro c r step
  have hengine : c.session.engine = .machine r := by decide
  have htruths : State.choosing.transitions.map (r.truthOf step (c.stage.hear .achieved)) =
      [.no, .yes, .yes] := by decide
  have hnone : ∀ t ∈ State.choosing.transitions,
      r.truthOf step (c.stage.hear .tick) t ≠ .yes := by decide
  refine ⟨hengine, htruths, ?_, hnone, ?_⟩
  · have hbefore : ∀ j u, j < 1 → State.choosing.transitions[j]? = some u →
        r.truthOf step (c.stage.hear .achieved) u ≠ .yes := by
      intro j u hj hu
      obtain rfl : j = 0 := by omega
      cases hu
      decide
    obtain ⟨memo, s₁, -, hlog, hcrosses⟩ :=
      (first_match MachineRun.choosing_waits c.stage .achieved (by decide)).1 1
        ⟨.triumphant, "home", [⟨"mode", .constant (.text "rest")⟩]⟩ rfl (by decide) hbefore
    have hmade : ∀ error, (r.onEvent .achieved (c.stage.hear .achieved)).1 ≠ .failed error := by
      intro error h
      cases h
    generalize r.onEvent .achieved (c.stage.hear .achieved) = after at hmade hcrosses ⊢
    cases hcrosses with
    | unmade | unentered => exact absurd rfl (hmade _)
    | entered _ _ _ hpath => exact hpath.trans (by rw [hlog]; rfl)
  · have hrests := (first_match MachineRun.choosing_waits c.stage .tick (by decide)).2 hnone
    exact (hrests.2 (by decide)).1

end Conductor
