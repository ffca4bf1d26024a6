import Conductor.Engine.MachineRun
import Conductor.Proofs.Stage.Verdict

/-!
How a machine chooses a transition. Transitions are tried in order, and on the way variables are read
and leaves are learned. None of this changes the truth of a guard that is tried later, so the choice
is told by the truth that each guard has to begin with.
-/

namespace Conductor

namespace MachineRun

/-- What came of trying transitions, by the truth of their guards: the first whose guard is true,
counted on from where the trying started, or none, and whether all were ruled out. -/
def Verdict.Fits (truth : Transition → Truth) (transitions : List Transition) (start : Nat)
    (allFalse : Bool) : Verdict → Prop
  | take position t => ∃ i, position = start + i ∧ transitions[i]? = some t ∧ truth t = .yes ∧
      ∀ j u, j < i → transitions[j]? = some u → truth u ≠ .yes
  | none allFalse' => (∀ t ∈ transitions, truth t ≠ .yes) ∧
      (allFalse' = true ↔ allFalse = true ∧ ∀ t ∈ transitions, truth t = .no)

variable {truth : Transition → Truth} {transitions : List Transition} {t : Transition}
  {start position : Nat} {allFalse : Bool} {verdict : Verdict}

/-- A guard that is not true is passed by; if it is not false either, not all are. -/
theorem Verdict.Fits.cons {stillFalse : Bool} (h : verdict.Fits truth transitions (start + 1) stillFalse)
    (ht : truth t ≠ .yes) (hstill : stillFalse = true ↔ allFalse = true ∧ truth t = .no) :
    verdict.Fits truth (t :: transitions) start allFalse := by
  cases verdict with
  | take position u =>
    obtain ⟨i, rfl, hu, htrue, hbefore⟩ := h
    refine ⟨i + 1, by omega, hu, htrue, fun j w hj hw => ?_⟩
    cases j with
    | zero =>
      obtain rfl : t = w := by simpa using hw
      exact ht
    | succ j => exact hbefore j w (by omega) hw
  | none all =>
    obtain ⟨hnone, hall⟩ := h
    refine ⟨List.forall_mem_cons.mpr ⟨ht, hnone⟩, ?_⟩
    rw [hall, hstill, List.forall_mem_cons, and_assoc]

/-- The transition that is taken is the first whose guard is true. -/
theorem Verdict.Fits.eq_take {i : Nat} (h : verdict.Fits truth transitions start allFalse)
    (ht : transitions[i]? = some t) (htrue : truth t = .yes)
    (hbefore : ∀ j u, j < i → transitions[j]? = some u → truth u ≠ .yes) :
    verdict = .take (start + i) t := by
  cases verdict with
  | take position u =>
    obtain ⟨k, rfl, hu, hutrue, hubefore⟩ := h
    rcases Nat.lt_trichotomy k i with hlt | rfl | hlt
    · exact absurd hutrue (hbefore k u hlt hu)
    · rw [Option.some.inj (hu.symm.trans ht)]
    · exact absurd htrue (hubefore i t hlt ht)
  | none all => exact absurd htrue (h.1 t (List.mem_of_getElem? ht))

theorem Verdict.Fits.eq_none (h : verdict.Fits truth transitions start allFalse)
    (hnone : ∀ t ∈ transitions, truth t ≠ .yes) :
    ∃ all, verdict = .none all ∧
      (all = true ↔ allFalse = true ∧ ∀ t ∈ transitions, truth t = .no) := by
  cases verdict with
  | take position u =>
    obtain ⟨i, -, hu, htrue, -⟩ := h
    exact absurd htrue (hnone u (List.mem_of_getElem? hu))
  | none all => exact ⟨all, rfl, h.2⟩

/-- Trying transitions reads variables and learns leaves, and comes to the choice that the truth of
their guards on the stage calls for. -/
structure Tried (s : Stage) (focus : Focus) (transitions : List Transition) (start : Nat)
    (allFalse : Bool) (memo : Memo) (verdict : Verdict) (memo' : Memo) (s' : Stage) : Prop where
  reads : s.Reads s'
  log : s'.log = s.log
  learned : s.verdict focus memo' = s.verdict focus memo
  fits : verdict.Fits (fun t => t.guard.weigh (s.verdict focus memo)) transitions start allFalse

variable {s s' : Stage} {focus : Focus} {memo memo' : Memo}

theorem tryTransitions_tried
    (h : tryTransitions focus transitions start allFalse memo s = (verdict, memo', s')) :
    Tried s focus transitions start allFalse memo verdict memo' s' := by
  induction transitions generalizing start allFalse memo s with
  | nil =>
    cases h
    exact ⟨.refl _, rfl, rfl, by simp, by simp⟩
  | cons t rest ih =>
    simp only [tryTransitions] at h
    have hreads : s.Reads (s.evaluate t.guard focus memo).2.2 := Stage.view_reads s t.guard focus
    have hagrees := Stage.Agrees.evaluate s t.guard focus memo
    have hlearned := s.verdict_learned t.guard focus memo
    have htruth := s.evaluate_eq_weigh t.guard focus memo
    -- the rest is tried on a stage and with a memo that give every leaf the same verdict
    have hpassed : ∀ {stillFalse : Bool},
        t.guard.weigh (s.verdict focus memo) ≠ .yes →
        (stillFalse = true ↔ allFalse = true ∧ t.guard.weigh (s.verdict focus memo) = .no) →
        tryTransitions focus rest (start + 1) stillFalse (s.evaluate t.guard focus memo).2.1
          (s.evaluate t.guard focus memo).2.2 = (verdict, memo', s') →
        Tried s focus (t :: rest) start allFalse memo verdict memo' s' := by
      intro stillFalse hne hstill hrest
      obtain ⟨hreads', hlog', hlearned', hfits⟩ := ih hrest
      rw [hagrees.verdict, hagrees.verdict, hlearned] at hlearned'
      rw [hagrees.verdict, hlearned] at hfits
      exact ⟨hreads.trans hreads', hlog'.trans hagrees.log, hlearned', hfits.cons hne hstill⟩
    rw [htruth] at h
    cases hweigh : t.guard.weigh (s.verdict focus memo) with
    | yes =>
      rw [hweigh] at h
      cases h
      exact ⟨hreads, hagrees.log, hlearned, 0, rfl, rfl, hweigh, by simp⟩
    | no =>
      rw [hweigh] at h
      exact hpassed (by simp [hweigh]) (by simp [hweigh]) h
    | pending =>
      rw [hweigh] at h
      exact hpassed (by simp [hweigh]) (by simp [hweigh]) h

end MachineRun

end Conductor
