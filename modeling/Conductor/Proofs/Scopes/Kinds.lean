import Conductor.Proofs.Scopes.InPlace
import Conductor.Proofs.Scopes.Operations
import Mathlib.Data.List.Nodup

/-!
Declared kinds are respected. A value gets into a scope by being resolved there or by being written,
and on either way it is checked against the declaration of its name; the output of a step is not
kept, and it is checked on every read.
-/

namespace Conductor

namespace Scope

variable {s : Scope} {name : String} {value : Value} {d : Declaration}

/-- The value is of the kind that the scope declares the name with, if it declares one. -/
def Permits (s : Scope) (name : String) (value : Value) : Prop :=
  ∀ d ∈ s.declarations, d.name = name → ∀ kind, d.kind = some kind → value.kind = kind

/-- No name is declared twice, and what is held is of the declared kind. -/
structure Typed (s : Scope) : Prop where
  distinct : (s.declarations.map Declaration.name).Nodup
  permits : ∀ name value, s.values.get? name = some value → s.Permits name value

theorem Typed.declaration? (h : s.Typed) (hmem : d ∈ s.declarations) (hname : d.name = name) :
    s.declaration? name = some d := by
  obtain ⟨found, hfound⟩ : ∃ found, s.declaration? name = some found :=
    Option.isSome_iff_exists.1 (List.find?_isSome.2 ⟨d, hmem, by simp [hname]⟩)
  have hmem' : found ∈ s.declarations := List.mem_of_find?_eq_some hfound
  have hname' : found.name = name := by simpa using List.find?_some hfound
  rw [hfound, List.inj_on_of_nodup_map h.distinct hmem' hmem (hname'.trans hname.symm)]

/-- What passes the check of the declaration that a name is resolved by is permitted. -/
theorem Typed.permits_checked (h : s.Typed)
    (hkind : ∀ d, s.declaration? name = some d → d.checkKind value = .ok ()) :
    s.Permits name value := fun _ hmem hname =>
  Declaration.checkKind_eq_ok.1 (hkind _ (h.declaration? hmem hname))

theorem typed_new {declarations : List Declaration}
    (h : (declarations.map Declaration.name).Nodup) (owner : String) :
    (new owner declarations).Typed where
  distinct := h
  permits _ _ hheld := by cases hheld

theorem Typed.insert (h : s.Typed) (hpermits : s.Permits name value) :
    Typed { s with values := s.values.insert name value } where
  distinct := h.distinct
  permits other held hheld := by
    rw [Dict.get?_insert] at hheld
    split at hheld
    · rename_i hother
      cases hheld
      exact hother ▸ hpermits
    · exact h.permits other held hheld

theorem outlives_typed : Scopes.Outlives Typed where
  keep h hd hkind := h.insert <| h.permits_checked fun d' hd' => by
    obtain rfl := Option.some.inj (hd.symm.trans hd')
    exact hkind
  put h hkind := by
    have hinsert := h.insert (h.permits_checked hkind)
    exact ⟨hinsert.distinct, hinsert.permits⟩
  reset h := ⟨h.distinct, fun name value hheld => h.permits name value <| by
    rw [reset, Dict.get?_filter] at hheld
    split at hheld
    · exact hheld
    · cases hheld⟩
  output h := ⟨h.distinct, h.permits⟩

/-- What is read where a scope decides is permitted there. -/
theorem Typed.permits_reading (h : s.Typed) {argument? output? : String → Option Value}
    (hr : (s.binding name).reading argument? output? name = .ok value) :
    s.Permits name value := by
  unfold binding at hr
  cases hvalue : s.values.get? name with
  | some held =>
    rw [hvalue] at hr
    cases hr
    exact h.permits name value hvalue
  | none =>
    refine h.permits_checked fun d hd => ?_
    simp only [hvalue, hd, Binding.reading] at hr
    split at hr
    · obtain ⟨_, hkind, rfl⟩ := Except.map_eq_ok hr
      exact hkind
    · cases hr

end Scope

namespace Scopes

theorem typed_run (operations : List Operation) (h : ∀ o ∈ operations, o.Distinct) :
    Each Scope.Typed (base.run operations) := by
  have hbase : Each Scope.Typed base := by
    intro scope hmem
    rw [List.mem_singleton.1 hmem]
    refine Scope.typed_new ?_ "context"
    exact List.nodup_nil
  exact hbase.run Scope.outlives_typed operations fun o ho owner => Scope.typed_new (h o ho) owner

/-- Whatever happens to the scopes of a session, where no scope declares a name twice: what is read is
of the kind that the deciding scope declares the name with; so is every value held where its name
is declared; and a read or a write in place that fails leaves all scopes as they were. -/
theorem declared_kinds_respected (operations : List Operation)
    (h : ∀ o ∈ operations, o.Distinct) :
    let s := base.run operations
    (∀ argument? name value s', s.get argument? name = .ok (value, s') →
      ∀ scope, s.deciding? name = some scope → scope.Permits name value) ∧
    (∀ scope ∈ s.levels, ∀ name value, scope.values.get? name = some value →
      scope.Permits name value) ∧
    (∀ argument? name e, s.get argument? name = .error e →
      (InPlace.get argument? name).outcome s = (.error e, s)) ∧
    ∀ name value e, s.set name value = .error e →
      (InPlace.set name value).outcome s = (.error e, s) := by
  intro s
  have htyped : Each Scope.Typed s := typed_run operations h
  refine ⟨fun argument? name value s' hg scope hscope => ?_, fun scope hmem => ?_,
    fun argument? name e he => ?_, fun name value e he => ?_⟩
  · have hr := reading_of_get hg
    rw [reading_eq, binding?_eq, hscope] at hr
    exact (htyped scope (List.mem_of_find?_eq_some hscope)).permits_reading hr
  · exact (htyped scope hmem).permits
  · rw [InPlace.outcome_get, he]
    rfl
  · rw [InPlace.outcome_set, he]
    rfl

/-- A model reads its goal, a handler is opened in it, and its tries are written from there, once as a
text and once as a number. -/
def striving : List Operation :=
  [.push "model" [⟨"goal", some .text, .argument "target"⟩, ⟨"tries", some .int, .assigned⟩],
    .access 1 (.get (fun _ => some (.text "bay")) "goal"), .push "handler" [],
    .access 2 (.set "tries" (.text "two")), .access 2 (.set "tries" (.int 2)), .reset 1]

theorem declared_kinds_respected_striving :
    let s := base.run striving
    (∀ o ∈ striving, o.Distinct) ∧
      (s.reading (fun _ => some (.text "bay")) "goal" = .ok (.text "bay") ∧
        ∀ scope, s.deciding? "goal" = some scope → scope.Permits "goal" (.text "bay")) ∧
      (s.peek? "tries" = some (.int 2) ∧
        ∀ scope ∈ s.levels, ∀ value, scope.values.get? "tries" = some value →
          scope.Permits "tries" value) ∧
      (InPlace.get (fun _ => some (.int 7)) "goal").outcome s =
        (.error (.typeMismatch "goal" "text" "int"), s) ∧
      (InPlace.set "tries" (.bool true)).outcome s =
        (.error (.typeMismatch "tries" "int" "bool"), s) := by
  intro s
  have hdistinct : ∀ o ∈ striving, o.Distinct := by decide
  obtain ⟨hread, hheld, hget, hset⟩ := declared_kinds_respected striving hdistinct
  have hgoal : s.reading (fun _ => some (.text "bay")) "goal" = .ok (.text "bay") := by decide
  obtain ⟨s', hg⟩ := get_of_reading hgoal
  exact ⟨hdistinct, ⟨hgoal, hread _ "goal" _ s' hg⟩,
    ⟨by decide, fun scope hmem value => hheld scope hmem "tries" value⟩,
    hget _ "goal" _ (by decide), hset "tries" _ _ (by decide)⟩

end Scopes

end Conductor
