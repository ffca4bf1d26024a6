import Conductor.Proofs.Scopes.Operations

/-!
How long a variable keeps its value. Only one scope decides about it, and only one more may be asked
for the output of a step. While neither of the two is forgotten or closed, and nothing inside of them
takes their place, the variable is read with the value that was read first.
-/

namespace Conductor

/-- Changing a place behind the first hit, or one that is none and becomes none. -/
theorem List.findSome?_modify {α β : Type} {f : α → Option β} {g : α → α} {l : List α} {i : Nat}
    (hfirst : l.findIdx? (fun a => (f a).isSome) ≠ some i) (hg : ∀ a, f a = none → f (g a) = none) :
    (l.modify i g).findSome? f = l.findSome? f := by
  induction l generalizing i with
  | nil => rw [List.modify_nil]
  | cons a rest ih =>
    rw [List.findIdx?_cons] at hfirst
    cases i with
    | zero =>
      have ha : f a = none := by
        cases h : f a with
        | none => rfl
        | some b => simp [h] at hfirst
      rw [List.modify_zero_cons, List.findSome?_cons, List.findSome?_cons, ha, hg a ha]
    | succ i =>
      rw [List.modify_succ_cons, List.findSome?_cons, List.findSome?_cons]
      cases h : f a with
      | some b => rfl
      | none =>
        refine ih fun hrest => hfirst ?_
        simp [h, hrest]

namespace Scope

variable {s : Scope} {name : String}

theorem isSome_binding? (s : Scope) (name : String) : (s.binding? name).isSome = s.knows name := by
  unfold binding?
  cases s.knows name <;> rfl

theorem binding?_eq_none : s.binding? name = none ↔ s.knows name = false := by
  rw [← isSome_binding?, Option.isSome_eq_false_iff, Option.isNone_iff_eq_none]

/-- A scope that is forgotten comes to know nothing. -/
theorem binding?_reset (h : s.binding? name = none) : s.reset.binding? name = none := by
  rw [binding?_eq_none, knows, Bool.or_eq_false_iff, Dict.contains_eq_isSome] at h ⊢
  refine ⟨h.1, ?_⟩
  rw [reset, Dict.get?_filter]
  split
  · exact h.2
  · rfl

theorem binding?_new {declarations : List Declaration}
    (h : name ∉ declarations.map Declaration.name) (owner : String) :
    (new owner declarations).binding? name = none := by
  rw [binding?_eq_none, (Scopes.push_encloses .base owner declarations).knows]
  exact decide_eq_false h

end Scope

namespace Scopes

variable {argument? : String → Option Value} {s s' : Scopes} {name label : String} {value : Value}
  {depth : Nat}

/-- The depth of the innermost scope with a property. -/
def depthOf? (s : Scopes) (p : Scope → Bool) : Option Nat :=
  (s.levels.findIdx? p).map fun i => s.depth - 1 - i

/-- The depth of the scope that decides about a name. -/
def home? (s : Scopes) (name : String) : Option Nat := s.depthOf? fun scope => scope.knows name

/-- The depth of the scope that has the output of a step. -/
def source? (s : Scopes) (label : String) : Option Nat :=
  s.depthOf? fun scope => scope.outputs.contains label

/-- The step whose output is read for a variable. -/
def step? (s : Scopes) (name : String) : Option String :=
  match s.binding? name with
  | some ⟨none, some ⟨_, _, .stepOutput label⟩⟩ => some label
  | _ => none

/-- A variable has its value from the scope that decides about it, or through that from the one that
has the output of the step. -/
def Feeds (s : Scopes) (name : String) (depth : Nat) : Prop :=
  s.home? name = some depth ∨ (s.step? name).bind s.source? = some depth

instance (s : Scopes) (name : String) (depth : Nat) : Decidable (s.Feeds name depth) :=
  inferInstanceAs (Decidable (_ ∨ _))

namespace Operation

/-- The operation bears on a variable: it is written, the output of its step is recorded anew, a scope
that it has its value from is forgotten or closed, or it is hidden by another declaration. -/
def Touches (s : Scopes) (name : String) : Operation → Prop
  | push _ declarations => name ∈ declarations.map Declaration.name
  | pop => 1 < s.depth ∧ s.Feeds name (s.depth - 1)
  | reset depth => s.Feeds name depth
  | access _ (.get _ _) => False
  | access _ (.set other _) => other = name
  | access depth (.output label _) => depth < s.depth ∧ s.step? name = some label

instance (s : Scopes) (name : String) (o : Operation) : Decidable (o.Touches s name) :=
  match o with
  | push _ _ => inferInstanceAs (Decidable (_ ∈ _))
  | pop => inferInstanceAs (Decidable (_ ∧ _))
  | reset depth => inferInstanceAs (Decidable (s.Feeds name depth))
  | access _ (.get _ _) => inferInstanceAs (Decidable False)
  | access _ (.set _ _) => inferInstanceAs (Decidable (_ = _))
  | access _ (.output _ _) => inferInstanceAs (Decidable (_ ∧ _))

end Operation

/-- What is read hangs on no output but that of the variable's step. -/
theorem reading_congr (hb : s'.binding? name = s.binding? name)
    (ho : ∀ label, s.step? name = some label → s'.output? label = s.output? label)
    (argument? : String → Option Value) :
    s'.reading argument? name = s.reading argument? name := by
  rw [reading_eq, reading_eq, hb]
  cases hbinding : s.binding? name with
  | none => rfl
  | some b =>
    obtain ⟨held, declared⟩ := b
    cases held with
    | some value => rfl
    | none =>
      cases declared with
      | none => rfl
      | some d =>
        obtain ⟨declaredName, kind, rule⟩ := d
        cases rule with
        | constant | argument | assigned => rfl
        | stepOutput label =>
          have hstep : s.step? name = some label := by simp [step?, hbinding]
          simp only [Scope.Binding.reading, Rule.supply, ho label hstep]

/-! ## What leaves a variable alone -/

section Found

variable {α : Type} {f : Scope → Option α} {g : Scope → Scope}

/-- Changing a scope in which nothing is found, unless something is found further in. -/
theorem findSome?_modifyAt_of_ne (h : s.depthOf? (fun scope => (f scope).isSome) ≠ some depth)
    (hg : ∀ scope, f scope = none → f (g scope) = none) :
    (s.modifyAt depth g).levels.findSome? f = s.levels.findSome? f := by
  unfold modifyAt
  split
  · rename_i hd
    refine List.findSome?_modify (fun hfound => h ?_) hg
    rw [depthOf?, hfound, Option.map_some]
    congr 1
    omega
  · rfl

/-- Closing a scope in which nothing is found. -/
theorem findSome?_pop
    (h : 1 < s.depth → s.depthOf? (fun scope => (f scope).isSome) ≠ some (s.depth - 1)) :
    s.pop.2.levels.findSome? f = s.levels.findSome? f := by
  unfold pop
  split
  · rename_i inner outer rest hlevels
    cases hinner : f inner with
    | none => simp only [hlevels, List.findSome?_cons, hinner]
    | some a =>
      refine absurd ?_ (h (by simp [Scopes.depth, hlevels]))
      rw [depthOf?, hlevels, List.findIdx?_cons, hinner, Option.isSome_some, if_pos rfl]
      rfl
  · rfl

/-- Changing a scope so that the same is found in it. -/
theorem findSome?_modifyAt (h : ∀ scope, f (g scope) = f scope) (s : Scopes) (depth : Nat) :
    (s.modifyAt depth g).levels.findSome? f = s.levels.findSome? f := by
  unfold modifyAt
  split
  · refine List.findSome?_of_map (List.ext_getElem? fun i => ?_)
    simp only [List.getElem?_map, List.getElem?_modify]
    cases s.levels[i]? with
    | none => rfl
    | some scope =>
      simp only [Option.map_some]
      split
      · exact congrArg some (h scope)
      · rfl
  · rfl

end Found

theorem home?_eq (s : Scopes) (name : String) :
    s.home? name = s.depthOf? fun scope => (scope.binding? name).isSome := by
  simp only [home?, Scope.isSome_binding?]

theorem source?_eq (s : Scopes) (label : String) :
    s.source? label = s.depthOf? fun scope => (scope.outputs.get? label).isSome := by
  simp only [source?, Dict.contains_eq_isSome]

theorem binding?_push {declarations : List Declaration}
    (h : name ∉ declarations.map Declaration.name) (s : Scopes) (owner : String) :
    (s.push owner declarations).binding? name = s.binding? name := by
  rw [binding?, push, List.findSome?_cons, Scope.binding?_new h]
  rfl

theorem binding?_recordOutput (s : Scopes) (depth : Nat) (label : String) (value : Value)
    (name : String) : (s.recordOutput depth label value).binding? name = s.binding? name := by
  unfold recordOutput binding?
  refine findSome?_modifyAt (fun _ => ?_) s depth
  rfl

theorem output?_recordOutput {other : String} (h : other ≠ label) (s : Scopes) (depth : Nat)
    (value : Value) : (s.recordOutput depth label value).output? other = s.output? other := by
  unfold recordOutput output?
  exact findSome?_modifyAt (fun scope => by simp only [Dict.get?_insert, if_neg h]) s depth

/-! ## Keeping a value -/

/-- A variable is read with a value, whatever the arguments of the root are. -/
def Yields (s : Scopes) (name : String) (value : Value) : Prop :=
  ∀ argument?, s.reading argument? name = .ok value

theorem yields_of_get (h : s.get argument? name = .ok (value, s')) : s'.Yields name value :=
  fun _ => reading_of_get (get_again h)

theorem Yields.congr (h : s.Yields name value) (hb : s'.binding? name = s.binding? name)
    (ho : ∀ label, s.step? name = some label → s'.output? label = s.output? label) :
    s'.Yields name value := fun argument? => (reading_congr hb ho argument?).trans (h argument?)

theorem Yields.access (h : s.Yields name value) {depth : Nat} {a : Access}
    (htouches : ¬(Operation.access depth a).Touches s name) :
    (a.perform depth s).Yields name value := by
  cases a with
  | get argument? other =>
    simp only [Access.perform]
    cases hg : s.get argument? other with
    | error e => exact h
    | ok result =>
      -- a read of the variable itself may keep its value, which then needs its step no more
      by_cases hother : other = name
      · subst hother
        have hresult := (reading_of_get hg).symm.trans (h argument?)
        cases hresult
        exact yields_of_get hg
      · exact h.congr (get_binding? hg (Ne.symm hother)) fun label _ =>
          congrFun (get_output? hg) label
  | set other written =>
    simp only [Access.perform]
    cases hw : s.set other written with
    | error e => exact h
    | ok s' =>
      exact h.congr (set_binding? hw (Ne.symm htouches)) fun label _ =>
        congrFun (set_output? hw) label
  | output label put =>
    by_cases hd : depth < s.depth
    · refine h.congr (binding?_recordOutput ..) fun other hstep => output?_recordOutput ?_ s _ _
      exact fun he => htouches ⟨hd, he ▸ hstep⟩
    · rw [Access.perform, recordOutput, modifyAt, if_neg hd]
      exact h

/-- What does not bear on a variable leaves it its value. -/
theorem Yields.perform (h : s.Yields name value) {o : Operation} (htouches : ¬o.Touches s name) :
    (o.perform s).Yields name value := by
  cases o with
  | push owner declarations => exact h.congr (binding?_push htouches s owner) fun _ _ => rfl
  | pop =>
    have hfeeds : 1 < s.depth → ¬s.Feeds name (s.depth - 1) := fun hd hf => htouches ⟨hd, hf⟩
    refine h.congr (findSome?_pop fun hd hhome => hfeeds hd (.inl ?_)) fun label hstep =>
      findSome?_pop fun hd hsource => hfeeds hd (.inr ?_)
    · rw [home?_eq, hhome]
    · rw [hstep, Option.bind_some, source?_eq, hsource]
  | reset depth =>
    have hfeeds : ¬s.Feeds name depth := htouches
    refine h.congr (findSome?_modifyAt_of_ne (fun hhome => hfeeds (.inl ?_)) fun _ =>
      Scope.binding?_reset) fun label hstep =>
        findSome?_modifyAt_of_ne (fun hsource => hfeeds (.inr ?_)) fun _ _ => rfl
    · rw [home?_eq, hhome]
    · rw [hstep, Option.bind_some, source?_eq, hsource]
  | access depth a => exact h.access htouches

/-- None of the operations bears on a variable when it is its turn. -/
def Undisturbed (name : String) : Scopes → List Operation → Prop
  | _, [] => True
  | s, o :: rest => ¬o.Touches s name ∧ Undisturbed name (o.perform s) rest

instance decidableUndisturbed (name : String) :
    (s : Scopes) → (operations : List Operation) → Decidable (Undisturbed name s operations)
  | _, [] => inferInstanceAs (Decidable True)
  | s, o :: rest =>
    haveI := decidableUndisturbed name (o.perform s) rest
    inferInstanceAs (Decidable (_ ∧ _))

theorem Yields.run {operations : List Operation} (h : s.Yields name value)
    (hrun : Undisturbed name s operations) : (s.run operations).Yields name value := by
  induction operations generalizing s with
  | nil => exact h
  | cons o rest ih => exact ih (h.perform hrun.1) hrun.2

end Scopes

end Conductor
