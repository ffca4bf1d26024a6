import Conductor.Interests
import Conductor.Proofs.Dict
import Mathlib.Logic.Function.Basic

/-!
Changes of interests. Whoever takes them in turn, starting from what the two lanes waited for
together, always knows what they wait for: nothing is subscribed that was subscribed before, and
nothing is dropped that was not.
-/

namespace Conductor

/-- Whether one of the lanes waits for an event. -/
def Interests.covers (i : Interests) (p : Interest) : Bool :=
  i.model.contains p || i.handler.contains p

namespace InterestChange

/-- The change by which an event is subscribed or dropped. -/
def of (p : Interest) : Bool → InterestChange
  | true => .subscribe p.1 p.2
  | false => .unsubscribe p.1 p.2

/-- From what was known, changes lead step by step to what is known after them. Each of them tells
something new. -/
inductive Leads : (Interest → Bool) → List InterestChange → (Interest → Bool) → Prop where
  | nil (known : Interest → Bool) : Leads known [] known
  | cons {known known' : Interest → Bool} {changes : List InterestChange} (p : Interest)
      (wanted : Bool) : known p = !wanted → Leads (Function.update known p wanted) changes known' →
    Leads known (of p wanted :: changes) known'

namespace Leads

variable {known known' known'' : Interest → Bool} {changes changes' : List InterestChange}

theorem trans (h : Leads known changes known') (h' : Leads known' changes' known'') :
    Leads known (changes ++ changes') known'' := by
  induction h with
  | nil => exact h'
  | cons p wanted hp _ ih => exact .cons p wanted hp (ih h')

/-- Different events are all subscribed or all dropped. -/
theorem all {pairs : List Interest} (wanted : Bool) (hd : pairs.Nodup)
    (hk : ∀ p ∈ pairs, known p = !wanted) :
    Leads known (pairs.map fun p => of p wanted) fun p => if p ∈ pairs then wanted else known p := by
  induction pairs generalizing known with
  | nil => exact .nil known
  | cons p rest ih =>
    obtain ⟨hnot, hrest⟩ := List.nodup_cons.mp hd
    have hk' : ∀ q ∈ rest, Function.update known p wanted q = !wanted := by
      intro q hq
      have hne : q ≠ p := by
        rintro rfl
        exact hnot hq
      rw [Function.update_of_ne hne]
      exact hk q (List.mem_cons_of_mem _ hq)
    have hknown : (fun q => if q ∈ p :: rest then wanted else known q) =
        fun q => if q ∈ rest then wanted else Function.update known p wanted q := by
      funext q
      by_cases hq : q = p <;> simp [hq]
    rw [hknown]
    exact .cons p wanted (hk p List.mem_cons_self) (ih hrest hk')

end Leads

end InterestChange

namespace Interests

variable {known : Interest → Bool} {i : Interests}

theorem mem_missingFrom {s t u : KeySet Interest} {p : Interest} :
    p ∈ missingFrom s t u ↔
      s.contains p = true ∧ t.contains p = false ∧ u.contains p = false := by
  simp [missingFrom, Dict.mem_keys]

theorem nodup_missingFrom (s t u : KeySet Interest) : (missingFrom s t u).Nodup :=
  s.nodup_keys.filter _

/-- What one lane drops and adds shows outside only where the other lane does not wait for it. -/
theorem leads_exchange (before wanted other : KeySet Interest) :
    InterestChange.Leads (fun p => before.contains p || other.contains p)
      (((missingFrom before wanted other).map fun p => .unsubscribe p.1 p.2) ++
        (missingFrom wanted before other).map fun p => .subscribe p.1 p.2)
      fun p => wanted.contains p || other.contains p := by
  have hdrop : ∀ p ∈ missingFrom before wanted other,
      (before.contains p || other.contains p) = !false := by
    intro p hp
    rw [(mem_missingFrom.mp hp).1]
    rfl
  have hadd : ∀ p ∈ missingFrom wanted before other,
      (if p ∈ missingFrom before wanted other then false
        else before.contains p || other.contains p) = !true := by
    intro p hp
    obtain ⟨_, hb, ho⟩ := mem_missingFrom.mp hp
    simp [hb, ho]
  have hknown : (fun p => wanted.contains p || other.contains p) = fun p =>
      if p ∈ missingFrom wanted before other then true
      else if p ∈ missingFrom before wanted other then false
      else before.contains p || other.contains p := by
    funext p
    simp only [mem_missingFrom]
    cases before.contains p <;> cases wanted.contains p <;> cases other.contains p <;> rfl
  rw [hknown]
  exact (InterestChange.Leads.all false (nodup_missingFrom before wanted other) hdrop).trans
    (.all true (nodup_missingFrom wanted before other) hadd)

theorem replace_leads (h : InterestChange.Leads known i.changes i.covers) (lane : Lane)
    (wanted : KeySet Interest) :
    InterestChange.Leads known (i.replace lane wanted).changes (i.replace lane wanted).covers := by
  cases lane with
  | model =>
    simp only [replace, List.append_assoc]
    exact h.trans (leads_exchange i.model wanted i.handler)
  | handler =>
    have hcovers : ∀ i : Interests, i.covers = fun p => i.handler.contains p || i.model.contains p :=
      fun i => funext fun p => Bool.or_comm ..
    rw [hcovers] at h ⊢
    simp only [replace, List.append_assoc]
    exact h.trans (leads_exchange i.handler wanted i.model)

theorem clearAll_leads (h : InterestChange.Leads known i.changes i.covers) :
    InterestChange.Leads known i.clearAll.changes i.clearAll.covers :=
  replace_leads (replace_leads h .handler .empty) .model .empty

theorem covers_clearAll (i : Interests) (p : Interest) : i.clearAll.covers p = false := rfl

end Interests

end Conductor
