import Conductor.Machine

/-!
What building a machine makes sure of: a machine is built exactly if nothing is wrong with it.
-/

namespace Conductor

theorem firstRepeated?_eq_none {seen names : List String} :
    firstRepeated? seen names = none ↔ names.Nodup ∧ ∀ name ∈ names, name ∉ seen := by
  induction names generalizing seen with
  | nil => simp [firstRepeated?]
  | cons name rest ih =>
    rw [firstRepeated?]
    split
    · rename_i hseen
      simp [hseen]
    · rename_i hnew
      simp only [ih, List.nodup_cons, List.mem_cons, forall_eq_or_imp, not_or]
      constructor
      · rintro ⟨hrest, hfresh⟩
        exact ⟨⟨fun hname => (hfresh name hname).1 rfl, hrest⟩, hnew, fun n hn => (hfresh n hn).2⟩
      · rintro ⟨⟨hname, hrest⟩, -, hfresh⟩
        exact ⟨hrest, fun n hn => ⟨fun heq => hname (heq ▸ hn), hfresh n hn⟩⟩

theorem firstRepeated?_nil_eq_none {names : List String} :
    firstRepeated? [] names = none ↔ names.Nodup := by
  simp [firstRepeated?_eq_none]

namespace Machine

/-- What the parts of a machine have to be like. -/
structure WellFormed (vars : List Declaration) (states : List State) (initial : Option String) :
    Prop where
  given : initial ≠ none
  distinct : (states.map State.id).Nodup
  terminal : ∀ state ∈ states, state.terminal = true → state.transitions = []
  targets : ∀ state ∈ states, ∀ t ∈ state.transitions, t.target ∈ states.map State.id
  distinctVars : (vars.map Declaration.name).Nodup

variable {m : Machine} {name : String} {vars : List Declaration} {states : List State}
  {initial : Option String} {state : State}

theorem transitionError?_eq_none {ids : List String} : transitionError? ids state = none ↔
    (state.terminal = true → state.transitions = []) ∧
      ∀ t ∈ state.transitions, t.target ∈ ids := by
  unfold transitionError?
  split
  · rename_i h
    obtain ⟨hterminal, htransitions⟩ : state.terminal = true ∧ state.transitions ≠ [] := by
      simpa using h
    exact iff_of_false (by simp) fun hnone => htransitions (hnone.1 hterminal)
  · rename_i h
    have hterminal : state.terminal = true → state.transitions = [] := by simpa using h
    exact ⟨fun hnone => ⟨hterminal, by simpa using hnone⟩, fun hsound => by simpa using hsound.2⟩

/-- A machine is built of parts exactly if they are as they have to be. -/
theorem build_eq_ok_iff : build name vars states initial = .ok m ↔
    WellFormed vars states initial ∧
      ∃ start, initial = some start ∧ m = ⟨name, vars, states, start⟩ := by
  constructor
  · intro h
    unfold build at h
    split at h
    · cases h
    rename_i start
    simp only at h
    split at h
    · cases h
    rename_i hstates
    split at h
    · cases h
    rename_i htransitions
    split at h
    · cases h
    rename_i hvars
    cases h
    have hsound := fun state hstate =>
      transitionError?_eq_none.mp (List.findSome?_eq_none_iff.mp htransitions state hstate)
    exact ⟨⟨Option.some_ne_none start, firstRepeated?_nil_eq_none.mp hstates,
      fun state hstate => (hsound state hstate).1, fun state hstate => (hsound state hstate).2,
      firstRepeated?_nil_eq_none.mp hvars⟩, start, rfl, rfl⟩
  · rintro ⟨hwell, start, rfl, rfl⟩
    have htransitions : states.findSome? (transitionError? (states.map State.id)) = none :=
      List.findSome?_eq_none_iff.mpr fun state hstate =>
        transitionError?_eq_none.mpr ⟨hwell.terminal state hstate, hwell.targets state hstate⟩
    simp only [build, firstRepeated?_nil_eq_none.mpr hwell.distinct, htransitions,
      firstRepeated?_nil_eq_none.mpr hwell.distinctVars]

theorem build_isOk_iff :
    (∃ m, build name vars states initial = .ok m) ↔ WellFormed vars states initial := by
  constructor
  · rintro ⟨m, hm⟩
    exact (build_eq_ok_iff.mp hm).1
  · intro hwell
    obtain ⟨start, hstart⟩ := Option.ne_none_iff_exists'.mp hwell.given
    exact ⟨_, build_eq_ok_iff.mpr ⟨hwell, start, hstart, rfl⟩⟩

end Machine

end Conductor
