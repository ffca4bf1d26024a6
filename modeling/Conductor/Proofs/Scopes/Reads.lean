import Conductor.Proofs.Scopes.Bindings
import Mathlib.Data.List.Perm.Basic

/-!
Reading several variables in turn. No read is affected by the ones before it, and the scopes come out
the same in whatever order the variables are read, those that cannot be read included.
-/

namespace Conductor

/-- The value that a scope keeps when a variable is read, if it finds one to keep. -/
def Scope.Binding.kept? (argument? : String → Option Value) : Scope.Binding → Option Value
  | ⟨none, some d⟩ =>
    if d.rule.isLasting then
      (d.rule.supply argument? fun _ => none).filter fun value => (d.checkKind value).isOk
    else none
  | ⟨some _, _⟩ | ⟨none, none⟩ => none

namespace Scope

variable {argument? output? : String → Option Value} {s : Scope} {name other : String}
  {value : Value}

theorem afterRead_eq (argument? output? : String → Option Value) (s : Scope) (name : String) :
    s.afterRead argument? output? name =
      ((s.binding name).kept? argument?).elim s fun value => s.keep name value := by
  rw [afterRead_output argument? output? fun _ => none, afterRead, read_eq, binding]
  cases s.values.get? name with
  | some held => rfl
  | none =>
    cases s.declaration? name with
    | none => rfl
    | some d =>
      simp only [Binding.kept?]
      cases d.rule.supply argument? fun _ => none with
      | none => cases d.rule.isLasting <;> rfl
      | some found =>
        simp only [Option.filter_some]
        cases d.checkKind found <;> cases d.rule.isLasting <;> rfl

theorem binding_keep (hne : other ≠ name) (s : Scope) (value : Value) :
    (s.keep name value).binding other = s.binding other := by
  simp only [binding, keep, Dict.get?_insert, hne, if_false]
  rfl

theorem afterRead_comm (hne : other ≠ name) (output? : String → Option Value) (s : Scope) :
    (s.afterRead argument? output? name).afterRead argument? output? other =
      (s.afterRead argument? output? other).afterRead argument? output? name := by
  simp only [afterRead_eq]
  cases hn : (s.binding name).kept? argument? with
  | none =>
    cases ho : (s.binding other).kept? argument? with
    | none => simp [hn, ho]
    | some value => simp [hn, ho, binding_keep hne.symm]
  | some value =>
    cases ho : (s.binding other).kept? argument? with
    | none => simp [hn, ho, binding_keep hne]
    | some value' =>
      simp only [Option.elim_some, binding_keep hne, binding_keep hne.symm, hn, ho]
      simp only [keep, Dict.insert_comm hne.symm]

end Scope

namespace Scopes

variable {argument? : String → Option Value} {s : Scopes} {name other : String}

theorem afterReadLevels_comm (hne : other ≠ name) (output? : String → Option Value)
    (levels : List Scope) :
    afterReadLevels argument? output? other (afterReadLevels argument? output? name levels) =
      afterReadLevels argument? output? name (afterReadLevels argument? output? other levels) := by
  induction levels with
  | nil => rfl
  | cons scope outer ih =>
    rw [afterReadLevels_cons, afterReadLevels_cons]
    cases hn : scope.knows name <;> cases ho : scope.knows other <;>
      simp [afterReadLevels_cons, Scope.knows_afterRead, hn, ho, ih, Scope.afterRead_comm hne]

/-- The scopes once a variable was read, whether or not a value was found. -/
def afterGet (argument? : String → Option Value) (s : Scopes) (name : String) : Scopes :=
  (s.get argument? name).toOption.elim s Prod.snd

theorem afterGet_eq (argument? : String → Option Value) (s : Scopes) (name : String) :
    s.afterGet argument? name = ⟨afterReadLevels argument? (fun _ => none) name s.levels⟩ := by
  rw [afterReadLevels_output argument? _ s.output?]
  exact Access.perform_get 0 s argument? name

theorem afterGet_of_ok {value : Value} {s' : Scopes} (h : s.get argument? name = .ok (value, s')) :
    s.afterGet argument? name = s' := by
  rw [afterGet, h]
  rfl

theorem afterGet_of_error {e : Error} (h : s.get argument? name = .error e) :
    s.afterGet argument? name = s := by
  rw [afterGet, h]
  rfl

theorem afterGet_comm (argument? : String → Option Value) (s : Scopes) (name other : String) :
    (s.afterGet argument? name).afterGet argument? other =
      (s.afterGet argument? other).afterGet argument? name := by
  by_cases h : other = name
  · rw [h]
  · simp only [afterGet_eq, afterReadLevels_comm h]

/-- A variable is read as if no other one, nor it itself, had been read before. -/
theorem afterGet_reading (argument? : String → Option Value) (s : Scopes) (name other : String) :
    (s.afterGet argument? name).reading argument? other = s.reading argument? other := by
  cases h : s.get argument? name with
  | error e => rw [afterGet_of_error h]
  | ok result =>
    rw [afterGet_of_ok h]
    by_cases ho : other = name
    · rw [ho, reading_of_get h, reading_of_get (get_again h)]
    · exact get_reading h ho

/-- The scopes once variables were read in turn, those that can be. -/
def afterGets (argument? : String → Option Value) (s : Scopes) (names : List String) : Scopes :=
  names.foldl (afterGet argument?) s

theorem afterGets_reading (argument? : String → Option Value) (s : Scopes) (names : List String)
    (other : String) :
    (s.afterGets argument? names).reading argument? other = s.reading argument? other := by
  induction names generalizing s with
  | nil => rfl
  | cons name rest ih => exact (ih _).trans (afterGet_reading argument? s name other)

theorem afterGets_perm {names names' : List String} (h : names.Perm names')
    (argument? : String → Option Value) (s : Scopes) :
    s.afterGets argument? names = s.afterGets argument? names' :=
  haveI : RightCommutative (afterGet argument?) := ⟨afterGet_comm argument?⟩
  h.foldl_eq s

end Scopes

end Conductor
