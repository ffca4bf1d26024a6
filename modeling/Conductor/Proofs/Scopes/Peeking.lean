import Conductor.Proofs.Scopes.Operations
import Mathlib.Data.List.Basic

/-!
Looking at a variable without resolving it. What shows is the value of the innermost scope that holds
one, while a read goes by the innermost scope that knows the name. These are one scope, unless the
one that decides has yet to find its value: then an outer value may show through.
-/

namespace Conductor

theorem Scope.knows_of_held {s : Scope} {name : String} {value : Value}
    (h : s.values.get? name = some value) : s.knows name = true := by
  rw [knows, Dict.contains_eq_isSome, h]
  exact Bool.or_true _

theorem Scope.not_held {s : Scope} {name : String} (h : s.knows name = false) :
    s.values.get? name = none := by
  cases hvalue : s.values.get? name with
  | none => rfl
  | some held =>
    rw [knows_of_held hvalue] at h
    cases h

theorem Scope.knows_of_declared {s : Scope} {name : String}
    (h : (s.declaration? name).isSome = true) : s.knows name = true := by
  rw [knows, h]
  rfl

namespace Scopes

variable {argument? output? : String → Option Value} {s s' : Scopes} {name : String} {value : Value}
  {levels : List Scope} {scope : Scope}

/-- The scope that decides about a name has yet to find a value for it. -/
def Unresolved (s : Scopes) (name : String) : Prop :=
  ∃ scope, s.deciding? name = some scope ∧ scope.values.get? name = none

instance (s : Scopes) (name : String) : Decidable (s.Unresolved name) :=
  decidable_of_iff ((s.deciding? name).any fun scope => (scope.values.get? name).isNone) (by
    simp [Unresolved, Option.any_eq_true])

/-- The innermost scope that holds a value decides, unless one further in has none yet. -/
theorem deciding_of_peek (h : s.peek? name = some value) :
    ∃ scope, s.deciding? name = some scope ∧
      (scope.values.get? name = some value ∨ scope.values.get? name = none) := by
  unfold peek? at h
  unfold deciding?
  revert h
  induction s.levels with
  | nil =>
    intro h
    cases h
  | cons scope outer ih =>
    intro h
    rw [List.findSome?_cons] at h
    rw [List.find?_cons]
    cases hvalue : scope.values.get? name with
    | some held =>
      rw [hvalue] at h
      rw [Scope.knows_of_held hvalue]
      exact ⟨scope, rfl, .inl (hvalue.trans h)⟩
    | none =>
      cases hknows : scope.knows name with
      | true => exact ⟨scope, rfl, .inr hvalue⟩
      | false =>
        rw [hvalue] at h
        exact ih h

theorem readLevels_held (hfound : (levels.find? fun scope => scope.knows name) = some scope)
    (hvalue : scope.values.get? name = some value) :
    readLevels argument? output? name levels = .ok (value, levels) := by
  induction levels with
  | nil => cases hfound
  | cons first outer ih =>
    rw [List.find?_cons] at hfound
    cases hknows : first.knows name with
    | true =>
      rw [hknows] at hfound
      cases hfound
      rw [readLevels, if_pos hknows, Scope.read_held _ _ hvalue]
      rfl
    | false =>
      rw [hknows] at hfound
      rw [readLevels, hknows, if_neg Bool.false_ne_true, ih hfound]
      rfl

/-- A value that is held where the name is decided about is read, and nothing changes. -/
theorem get_of_held (hfound : s.deciding? name = some scope)
    (hvalue : scope.values.get? name = some value) (argument? : String → Option Value) :
    s.get argument? name = .ok (value, s) := by
  rw [Scopes.get, readLevels_held hfound hvalue]
  rfl

/-- What shows of a resolved variable is what is read. -/
theorem get_of_peek (h : s.peek? name = some value) (hresolved : ¬s.Unresolved name)
    (argument? : String → Option Value) : s.get argument? name = .ok (value, s) := by
  obtain ⟨scope, hfound, hvalue | hnone⟩ := deciding_of_peek h
  · exact get_of_held hfound hvalue argument?
  · exact absurd ⟨scope, hfound, hnone⟩ hresolved

/-- An unresolved variable is read by its declaration, whatever shows of it. -/
theorem Unresolved.reading (h : s.Unresolved name) :
    ∃ scope d, s.deciding? name = some scope ∧ scope.declaration? name = some d ∧
      ∀ argument?, s.reading argument? name =
        Scope.Binding.reading argument? s.output? name ⟨none, some d⟩ := by
  obtain ⟨scope, hfound, hvalue⟩ := h
  have hknows : scope.knows name = true := by
    rw [deciding?, List.find?_eq_some_iff_append] at hfound
    exact hfound.1
  rw [Scope.knows, Dict.contains_eq_isSome, hvalue, Option.isSome_none, Bool.or_false] at hknows
  obtain ⟨d, hd⟩ := Option.isSome_iff_exists.1 hknows
  refine ⟨scope, d, hfound, hd, fun argument? => ?_⟩
  rw [reading_eq, binding?_eq, hfound, Option.map_some, Scope.binding, hvalue, hd]

/-- Either the innermost scope declares the name and has no value for it, or it is not concerned. -/
theorem Unresolved.cases {first : Scope} {rest : List Scope} (hlevels : s.levels = first :: rest)
    (h : s.Unresolved name) :
    ((first.declaration? name).isSome = true ∧ first.values.get? name = none) ∨
      (first.knows name = false ∧ Unresolved ⟨rest⟩ name) := by
  obtain ⟨scope, hfound, hnone⟩ := h
  rw [deciding?, hlevels, List.find?_cons] at hfound
  cases hknows : first.knows name with
  | true =>
    rw [hknows] at hfound
    cases hfound
    rw [Scope.knows, Dict.contains_eq_isSome, hnone, Option.isSome_none, Bool.or_false] at hknows
    exact .inl ⟨hknows, hnone⟩
  | false =>
    rw [hknows] at hfound
    exact .inr ⟨rfl, scope, hfound, hnone⟩

theorem peek?_cons (first : Scope) (rest : List Scope) (name : String) :
    peek? ⟨first :: rest⟩ name = (first.values.get? name).or (peek? ⟨rest⟩ name) := by
  rw [peek?, List.findSome?_cons]
  cases first.values.get? name <;> rfl

/-- A snapshot has of each name what shows of it. -/
theorem snapshot_get? (s : Scopes) (name : String) : s.snapshot.get? name = s.peek? name := by
  unfold snapshot peek?
  induction s.levels with
  | nil => rfl
  | cons scope outer ih =>
    rw [List.foldr_cons, Dict.get?_insertAll fun value => value, ih, Option.map_id_fun', id]
    exact (peek?_cons scope outer name).symm

/-! ## The two outermost scopes -/

/-- The outermost scope holds nothing that the next one declares. -/
def Apart (s : Scopes) : Prop :=
  ∀ i inner outer, s.depth = i + 2 → s.levels[i]? = some inner → s.levels[i + 1]? = some outer →
    ∀ name, (inner.declaration? name).isSome = true → outer.values.get? name = none

namespace Apart

/-- What a scope comes to hold is nothing that scopes further in know. -/
theorem replace {i : Nat} {scope' : Scope} (h : s.Apart) (hi : s.levels[i]? = some scope)
    (hd : scope'.declarations = scope.declarations)
    (hv : ∀ name, scope.values.get? name = none → scope'.values.get? name ≠ none →
      ∀ j < i, ∀ inner, s.levels[j]? = some inner → inner.knows name = false) :
    Apart ⟨s.levels.set i scope'⟩ := by
  intro k inner outer hdepth hinner houter name hdeclared
  replace hdepth : s.depth = k + 2 := by simpa [depth] using hdepth
  rw [List.getElem?_set] at hinner houter
  -- the scope that changes is the inner one of the two, the outer one, or further in
  by_cases hk : i = k
  · have hlt : k < s.levels.length := hk ▸ (List.getElem?_eq_some_iff.1 hi).1
    rw [if_pos hk, if_pos (hk ▸ hlt)] at hinner
    cases hinner
    rw [if_neg (by omega)] at houter
    rw [Scope.declaration?, hd] at hdeclared
    exact h k scope outer hdepth (hk ▸ hi) houter name hdeclared
  · rw [if_neg hk] at hinner
    by_cases hk' : i = k + 1
    · subst hk'
      rw [if_pos rfl, if_pos (List.getElem?_eq_some_iff.1 hi).1] at houter
      cases houter
      have hnone := h k inner scope hdepth hinner hi name hdeclared
      refine Decidable.byContradiction fun hsome => ?_
      have hunknown := hv name hnone hsome k (Nat.lt_succ_self k) inner hinner
      rw [Scope.knows_of_declared hdeclared] at hunknown
      cases hunknown
    · rw [if_neg hk'] at houter
      exact h k inner outer hdepth hinner houter name hdeclared

theorem get (h : s.Apart) (hg : s.get argument? name = .ok (value, s')) : s'.Apart := by
  obtain ⟨i, scope, scope', hposition, hi, hread, rfl⟩ := get_replaces hg
  rcases Scope.read_ok hread with rfl | ⟨rfl, _, _⟩
  · rwa [List.set_of_getElem? hi]
  · refine h.replace hi rfl fun other hnone hsome j hj inner hinner => ?_
    rw [Scope.keep, Dict.get?_insert] at hsome
    split at hsome
    · rename_i hother
      exact hother ▸ position?_inside hposition hj hinner
    · exact absurd hnone hsome

theorem set (h : s.Apart) (hw : s.set name value = .ok s') : s'.Apart := by
  obtain rfl | ⟨scope, scope', hi, hwrite, rfl⟩ := set_replaces hw
  · exact h
  · obtain rfl := Scope.write_ok hwrite
    refine h.replace hi rfl fun other hnone hsome j hj inner hinner => ?_
    rw [Scope.put, Dict.get?_insert] at hsome
    split at hsome
    · rename_i hother
      exact hother ▸ target_inside hj hinner
    · exact absurd hnone hsome

theorem modifyAt {f : Scope → Scope} (h : s.Apart)
    (hd : ∀ scope, (f scope).declarations = scope.declarations)
    (hv : ∀ scope : Scope, ∀ name, scope.values.get? name = none →
      (f scope).values.get? name = none) (depth : Nat) : (s.modifyAt depth f).Apart := by
  unfold Scopes.modifyAt
  split
  · intro k inner outer hdepth hinner houter name hdeclared
    rw [List.getElem?_modify] at hinner houter
    obtain ⟨inner₀, hinner₀, rfl⟩ := Option.map_eq_some_iff.1 hinner
    obtain ⟨outer₀, houter₀, rfl⟩ := Option.map_eq_some_iff.1 houter
    have hdeclared₀ : (inner₀.declaration? name).isSome = true := by
      split at hdeclared
      · rwa [Scope.declaration?, hd] at hdeclared
      · exact hdeclared
    have hnone := h k inner₀ outer₀ (by simpa [Scopes.depth] using hdepth) hinner₀ houter₀ name
      hdeclared₀
    split
    · exact hv outer₀ name hnone
    · exact hnone
  · exact h

theorem pop (h : s.Apart) : s.pop.2.Apart := by
  unfold Scopes.pop
  split
  · rename_i first outer rest hlevels
    intro k inner outermost hdepth hinner houter
    refine h (k + 1) inner outermost ?_ ?_ ?_
    · simpa [Scopes.depth, hlevels] using hdepth
    · rw [hlevels]
      exact hinner
    · rw [hlevels]
      exact houter
  · exact h

theorem push (h : s.Apart) (hs : 2 ≤ s.depth) (owner : String) (declarations : List Declaration) :
    (s.push owner declarations).Apart := by
  intro k inner outer hdepth hinner houter
  have hk : s.depth = k + 1 := Nat.succ.inj hdepth
  obtain ⟨k, rfl⟩ : ∃ k', k = k' + 1 := ⟨k - 1, by omega⟩
  exact h k inner outer hk hinner houter

/-- With no more than these two nothing shows through. -/
theorem resolved (h : s.Apart) (hd : s.depth = 2) (hp : s.peek? name = some value) :
    ¬s.Unresolved name := by
  intro hu
  obtain ⟨levels⟩ := s
  obtain ⟨inner, outer, rfl⟩ : ∃ inner outer, levels = [inner, outer] := List.length_eq_two.1 hd
  rw [peek?_cons, peek?_cons] at hp
  rcases hu.cases rfl with ⟨hdeclared, hinner⟩ | ⟨hunknown, hu⟩
  · rw [hinner, h 0 inner outer hd rfl rfl name hdeclared] at hp
    cases hp
  · rcases hu.cases rfl with ⟨_, houter⟩ | ⟨_, _, hfound, _⟩
    · rw [Scope.not_held hunknown, houter] at hp
      cases hp
    · cases hfound

end Apart

end Scopes

end Conductor
