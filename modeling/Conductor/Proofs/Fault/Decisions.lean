import Conductor.Proofs.Fault.Selection

/-!
Decisions about faults. A pattern describes the faults that it accepts. Of the responses of a table
the foremost one is provided, and what is done with a fault follows from the foremost response of the
nearest table that has one and from the urgency of the active handler.
-/

namespace Conductor

/-- A part occurs in a text if something stands before it and something behind it. -/
theorem occursIn_iff {part text : List Char} : occursIn part text = true ↔ part <:+: text := by
  induction text with
  | nil => simp [occursIn]
  | cons c rest ih => simp [occursIn, List.infix_cons_iff, ih]

theorem occursIn_toList_iff {part text : String} :
    occursIn part.toList text.toList = true ↔ ∃ before after, text = before ++ part ++ after := by
  rw [occursIn_iff]
  constructor
  · rintro ⟨before, after, h⟩
    refine ⟨.ofList before, .ofList after, String.ext ?_⟩
    simpa using h.symm
  · rintro ⟨before, after, rfl⟩
    exact ⟨before.toList, after.toList, by simp⟩

namespace FaultPattern

/-- What a pattern says about a fault. -/
def Describes (f : Fault) : FaultPattern → Prop
  | any => True
  | category name => f.category = name
  | messageContains text => ∃ before after, f.message = before ++ text ++ after
  | all patterns => ∀ p ∈ patterns, Describes f p
  | anyOf patterns => ∃ p, ∃ _ : p ∈ patterns, Describes f p
  | not pattern => ¬ Describes f pattern

mutual

theorem accepts_iff {f : Fault} : ∀ {p : FaultPattern}, accepts f p = true ↔ p.Describes f
  | any => by simp [accepts, Describes]
  | category name => by simp [accepts, Describes]
  | messageContains text => by rw [accepts, Describes, occursIn_toList_iff]
  | all patterns => by rw [accepts, Describes, acceptsAll_iff]
  | anyOf patterns => by
    rw [accepts, Describes, acceptsAny_iff]
    simp only [exists_prop]
  | not pattern => by rw [accepts, Describes, ← accepts_iff, Bool.not_eq_true', Bool.not_eq_true]

theorem acceptsAll_iff {f : Fault} :
    ∀ {ps : List FaultPattern}, acceptsAll f ps = true ↔ ∀ p ∈ ps, p.Describes f
  | [] => by simp [acceptsAll]
  | p :: rest => by
    rw [acceptsAll, Bool.and_eq_true, accepts_iff, acceptsAll_iff, List.forall_mem_cons]

theorem acceptsAny_iff {f : Fault} :
    ∀ {ps : List FaultPattern}, acceptsAny f ps = true ↔ ∃ p ∈ ps, p.Describes f
  | [] => by simp [acceptsAny]
  | p :: rest => by
    rw [acceptsAny, Bool.or_eq_true, accepts_iff, acceptsAny_iff]
    simp

end

end FaultPattern

/-- A response is meant for a fault and open to it. -/
def Response.Fits (f : Fault) (inReach : Reach → Bool) (r : Response) : Prop :=
  r.pattern.Describes f ∧ inReach r.reach = true

namespace ResponseTable

variable {t : ResponseTable} {f : Fault} {inReach : Reach → Bool} {r : Response}

theorem eligible_iff : eligible f inReach r = true ↔ r.Fits f inReach := by
  rw [eligible, Bool.and_eq_true, FaultPattern.accepts_iff, Response.Fits]

theorem eligible_eq_false_iff : eligible f inReach r = false ↔ ¬ r.Fits f inReach := by
  rw [← eligible_iff, Bool.not_eq_true]

/-- The response at a position is as urgent as any that fits, and the earliest that is so urgent. -/
structure Foremost (t : ResponseTable) (f : Fault) (inReach : Reach → Bool) (entry : Nat)
    (r : Response) : Prop where
  get : t.responses[entry]? = some r
  fits : r.Fits f inReach
  highest : ∀ r' ∈ t.responses, r'.Fits f inReach → r'.priority ≤ r.priority
  earliest : ∀ i < entry, ∀ r', t.responses[i]? = some r' → r'.Fits f inReach →
    r'.priority ≠ r.priority

theorem provides_iff_foremost {entry : Nat} :
    Provides t.responses f inReach entry r ↔ t.Foremost f inReach entry r := by
  constructor
  · intro h
    refine ⟨h.get, eligible_iff.mp h.fits, fun r' hr' hf => ?_, fun i hi r' hr' hf => ?_⟩
    · obtain ⟨i, hi⟩ := List.getElem?_of_mem hr'
      exact h.highest i r' hi (eligible_iff.mpr hf)
    · exact Int.ne_of_lt (h.earliest i r' hi hr' (eligible_iff.mpr hf))
  · intro h
    refine ⟨h.get, eligible_iff.mpr h.fits, fun i r' hr' hf => ?_, fun i r' hi hr' hf => ?_⟩
    · exact h.highest r' (List.mem_of_getElem? hr') (eligible_iff.mp hf)
    · exact Int.lt_iff_le_and_ne.mpr ⟨h.highest r' (List.mem_of_getElem? hr') (eligible_iff.mp hf),
        h.earliest i hi r' hr' (eligible_iff.mp hf)⟩

theorem select_iff_foremost {entry : Nat} :
    t.select f inReach = some (entry, r) ↔ t.Foremost f inReach entry r :=
  select_eq_some_iff.trans provides_iff_foremost

theorem select_none_iff :
    t.select f inReach = none ↔ ∀ r ∈ t.responses, ¬ r.Fits f inReach := by
  simp only [select_eq_none_iff, eligible_eq_false_iff]

end ResponseTable

namespace Dispatch

variable {d : Dispatch} {f : Fault} {inReach : Reach → Bool} {target : Target} {first : Nat}

theorem selectFrom_none_iff : d.selectFrom f first inReach = none ↔
    ∀ k t, first ≤ k → d.tables[k]? = some t → ∀ r ∈ t.responses, ¬ r.Fits f inReach := by
  simp only [selectFrom_eq_none_iff, ResponseTable.eligible_eq_false_iff]

theorem selectFrom_zero_none_iff : d.selectFrom f 0 inReach = none ↔
    ∀ t ∈ d.tables, ∀ r ∈ t.responses, ¬ r.Fits f inReach := by
  rw [selectFrom_none_iff]
  constructor
  · intro h t ht
    obtain ⟨k, hk⟩ := List.getElem?_of_mem ht
    exact h k t (Nat.zero_le k) hk
  · intro h k t _ hk
    exact h t (List.mem_of_getElem? hk)

theorem decide_unhandled_iff :
    d.decide f inReach = .unhandled ↔ d.selectFrom f 0 inReach = none := by
  cases hs : d.selectFrom f 0 inReach with
  | none => simp [decide, hs]
  | some found =>
    cases ha : d.active with
    | none => simp [decide, hs, ha]
    | some active =>
      simp only [decide, hs, ha, reduceCtorEq, iff_false]
      split <;> simp

theorem decide_activate_iff : d.decide f inReach = .activate target ↔
    d.selectFrom f 0 inReach = some target ∧ d.active = none := by
  cases hs : d.selectFrom f 0 inReach with
  | none => simp [decide, hs]
  | some found =>
    cases ha : d.active with
    | none => simp [decide, hs, ha]
    | some active =>
      simp only [decide, hs, ha, reduceCtorEq, and_false, iff_false]
      split <;> simp

theorem decide_preempt_iff : d.decide f inReach = .preempt target ↔
    d.selectFrom f 0 inReach = some target ∧
      ∃ active, d.active = some active ∧ active.priority < target.response.priority := by
  cases hs : d.selectFrom f 0 inReach with
  | none => simp [decide, hs]
  | some found =>
    cases ha : d.active with
    | none => simp [decide, hs, ha]
    | some active =>
      by_cases hurgent : active.priority < found.response.priority
      · have hd : d.decide f inReach = .preempt found := by simp [decide, hs, ha, hurgent]
        simp only [hd, Decision.preempt.injEq, Option.some.injEq, exists_eq_left']
        exact ⟨fun he => ⟨he, he ▸ hurgent⟩, And.left⟩
      · have hd : d.decide f inReach = .queue := by simp [decide, hs, ha, hurgent]
        simp only [hd, reduceCtorEq, Option.some.injEq, exists_eq_left', false_iff, not_and]
        exact fun he => he ▸ hurgent

theorem decide_queue_iff : d.decide f inReach = .queue ↔
    ∃ target active, d.selectFrom f 0 inReach = some target ∧ d.active = some active ∧
      target.response.priority ≤ active.priority := by
  cases hs : d.selectFrom f 0 inReach with
  | none => simp [decide, hs]
  | some found =>
    cases ha : d.active with
    | none => simp [decide, hs, ha]
    | some active => simp [decide, hs, ha]

/-- A table provides its foremost response that fits, and none only if none fits. A fault is
unhandled if nothing fits in any table. Otherwise the foremost response of the nearest table that
has one is activated, or takes the place of an active handler that is less urgent, or waits behind
one that is not. A fault whose handler failed goes to the nearest table outside the failed one in
the same way. -/
theorem foremost_response_decides (d : Dispatch) (f : Fault) (inReach : Reach → Bool) :
    (∀ t : ResponseTable,
      (∀ entry r, t.select f inReach = some (entry, r) ↔ t.Foremost f inReach entry r) ∧
      (t.select f inReach = none ↔ ∀ r ∈ t.responses, ¬ r.Fits f inReach)) ∧
    (d.decide f inReach = .unhandled ↔
      ∀ t ∈ d.tables, ∀ r ∈ t.responses, ¬ r.Fits f inReach) ∧
    (∀ target, d.decide f inReach = .activate target ↔
      d.Nearest f inReach 0 target ∧ d.active = none) ∧
    (∀ target, d.decide f inReach = .preempt target ↔
      d.Nearest f inReach 0 target ∧
        ∃ active, d.active = some active ∧ active.priority < target.response.priority) ∧
    (d.decide f inReach = .queue ↔ ∃ target active, d.Nearest f inReach 0 target ∧
      d.active = some active ∧ target.response.priority ≤ active.priority) ∧
    ∀ failed,
      (∀ target, d.escalationTarget f failed inReach = some target ↔
        d.Nearest f inReach (failed + 1) target) ∧
      (d.escalationTarget f failed inReach = none ↔ ∀ k t, failed < k → d.tables[k]? = some t →
        ∀ r ∈ t.responses, ¬ r.Fits f inReach) := by
  refine ⟨fun t => ⟨fun entry r => ResponseTable.select_iff_foremost, ResponseTable.select_none_iff⟩,
    ?_, fun target => ?_, fun target => ?_, ?_, fun failed => ⟨fun target => ?_, ?_⟩⟩
  · exact decide_unhandled_iff.trans selectFrom_zero_none_iff
  · rw [decide_activate_iff, selectFrom_eq_some_iff]
  · rw [decide_preempt_iff, selectFrom_eq_some_iff]
  · simp only [decide_queue_iff, selectFrom_eq_some_iff]
  · exact selectFrom_eq_some_iff
  · exact selectFrom_none_iff

end Dispatch

end Conductor
