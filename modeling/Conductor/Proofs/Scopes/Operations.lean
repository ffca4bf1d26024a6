import Conductor.Proofs.Scopes.Bindings

/-!
Everything that may happen to scopes, in any order: they are opened, closed, forgotten and accessed.
What holds of each scope on its own is shown for one scope under what can happen to it, and then
holds of every scope after any operations.
-/

namespace Conductor

namespace Scopes

/-- What may happen to scopes. -/
inductive Operation where
  | push (owner : String) (declarations : List Declaration)
  | pop
  | reset (depth : Nat)
  /-- An access of a model whose own scope is at a depth. -/
  | access (depth : Nat) (a : Access)

namespace Operation

def perform (s : Scopes) : Operation → Scopes
  | push owner declarations => s.push owner declarations
  | pop => s.pop.2
  | reset depth => s.reset depth
  | access depth a => a.perform depth s

/-- The declarations that a scope is opened with. -/
def opened : Operation → List Declaration
  | push _ declarations => declarations
  | pop | reset _ | access _ _ => []

/-- No name is declared twice by the scope that is opened. -/
def Distinct (o : Operation) : Prop := (o.opened.map Declaration.name).Nodup

instance (o : Operation) : Decidable o.Distinct := inferInstanceAs (Decidable (List.Nodup _))

end Operation

/-- The scopes after operations in turn. -/
def run (s : Scopes) (operations : List Operation) : Scopes :=
  operations.foldl Operation.perform s

theorem run_cons (s : Scopes) (o : Operation) (rest : List Operation) :
    s.run (o :: rest) = (o.perform s).run rest := rfl

/-! ## Scope by scope -/

/-- A property of a scope that outlives whatever happens to the scope while it is open. -/
structure Outlives (P : Scope → Prop) : Prop where
  keep : ∀ {s : Scope} {d : Declaration} {name : String} {value : Value},
    P s → s.declaration? name = some d → d.checkKind value = .ok () → P (s.keep name value)
  put : ∀ {s : Scope} {name : String} {value : Value}, P s →
    (∀ d, s.declaration? name = some d → d.checkKind value = .ok ()) → P (s.put name value)
  reset : ∀ {s : Scope}, P s → P s.reset
  output : ∀ {s : Scope} {label : String} {value : Value}, P s →
    P { s with outputs := s.outputs.insert label value }

variable {P : Scope → Prop} {s s' : Scopes} {name : String} {value : Value}

def Each (P : Scope → Prop) (s : Scopes) : Prop := ∀ scope ∈ s.levels, P scope

theorem Outlives.read (hP : Outlives P) {argument? output? : String → Option Value}
    {scope scope' : Scope} (h : P scope)
    (hr : scope.read argument? output? name = .ok (value, scope')) : P scope' := by
  cases hvalue : scope.values.get? name with
  | some held =>
    rw [Scope.read_held _ _ hvalue] at hr
    cases hr
    exact h
  | none =>
    obtain ⟨d, hd, _, hkind, rfl⟩ := Scope.read_found hr hvalue
    split
    · exact hP.keep h hd hkind
    · exact h

theorem Outlives.write (hP : Outlives P) {scope scope' : Scope} (h : P scope)
    (hw : scope.write name value = .ok scope') : P scope' := by
  obtain rfl := Scope.write_ok hw
  refine hP.put h fun d hd => ?_
  rw [Scope.write, hd] at hw
  exact (Except.map_eq_ok hw).choose_spec.1

theorem Each.replace {i : Nat} {scope : Scope} (h : Each P s) (hscope : P scope) :
    Each P ⟨s.levels.set i scope⟩ := by
  intro other hmem
  rcases List.mem_or_eq_of_mem_set hmem with hmem | rfl
  · exact h other hmem
  · exact hscope

theorem Each.get (h : Each P s) (hP : Outlives P) {argument? : String → Option Value}
    (hg : s.get argument? name = .ok (value, s')) : Each P s' := by
  obtain ⟨_, scope, _, _, hi, hread, rfl⟩ := get_replaces hg
  exact h.replace (hP.read (h scope (List.mem_of_getElem? hi)) hread)

theorem Each.set (h : Each P s) (hP : Outlives P) (hw : s.set name value = .ok s') :
    Each P s' := by
  obtain rfl | ⟨scope, _, hi, hwrite, rfl⟩ := set_replaces hw
  · exact h
  · exact h.replace (hP.write (h scope (List.mem_of_getElem? hi)) hwrite)

theorem Each.modifyAt {f : Scope → Scope} (h : Each P s) (hf : ∀ scope, P scope → P (f scope))
    (depth : Nat) : Each P (s.modifyAt depth f) := by
  unfold Scopes.modifyAt
  split
  · intro scope hmem
    obtain ⟨i, hi⟩ := List.mem_iff_getElem?.1 hmem
    rw [List.getElem?_modify] at hi
    obtain ⟨other, ho, rfl⟩ := Option.map_eq_some_iff.1 hi
    have hother := h other (List.mem_of_getElem? ho)
    split
    · exact hf other hother
    · exact hother
  · exact h

theorem Each.pop (h : Each P s) : Each P s.pop.2 := by
  unfold Scopes.pop
  split
  · rename_i hlevels
    intro scope hmem
    exact h scope (hlevels ▸ List.mem_cons_of_mem _ hmem)
  · exact h

theorem Each.perform (h : Each P s) (hP : Outlives P) (o : Operation)
    (hnew : ∀ owner, P (.new owner o.opened)) : Each P (o.perform s) := by
  cases o with
  | push owner declarations =>
    intro scope hmem
    rcases List.mem_cons.1 hmem with rfl | hmem
    · exact hnew owner
    · exact h scope hmem
  | pop => exact h.pop
  | reset depth => exact h.modifyAt (fun _ => hP.reset) depth
  | access depth a =>
    cases a with
    | get argument? name =>
      simp only [Operation.perform, Access.perform]
      cases hg : s.get argument? name with
      | error e => exact h
      | ok result => exact h.get hP hg
    | set name value =>
      simp only [Operation.perform, Access.perform]
      cases hw : s.set name value with
      | error e => exact h
      | ok s' => exact h.set hP hw
    | output label value => exact h.modifyAt (fun _ => hP.output) depth

theorem Each.run (h : Each P s) (hP : Outlives P) (operations : List Operation)
    (hnew : ∀ o ∈ operations, ∀ owner, P (.new owner o.opened)) : Each P (s.run operations) := by
  induction operations generalizing s with
  | nil => exact h
  | cons o rest ih =>
    rw [run_cons]
    exact ih (h.perform hP o (hnew o List.mem_cons_self)) fun o' ho =>
      hnew o' (List.mem_cons_of_mem o ho)

end Scopes

end Conductor
