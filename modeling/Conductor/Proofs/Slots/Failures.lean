import Conductor.Proofs.Engine.Entries
import Conductor.Proofs.Slots.Operations

/-!
Failed resolutions. A resolution that fails leaves the slots and the children of every task as
they were. A task that it made is left behind in one case only: the root is none of the plan's
tasks, so the new task cannot be attached, and nobody stops it.
-/

namespace Conductor

namespace Plan

variable {p q : Plan}

/-! ## New tasks -/

/-- A task that is made has no number of an earlier one. -/
theorem instantiate_new {d : Description} {handle : Handle} (hp : p.Numbered)
    (hi : p.instantiate d = .ok (handle, q)) : p.task? handle.id = none := by
  obtain ⟨rfl, -⟩ := instantiate_eq hi
  exact hp.task?_next

theorem instantiate_pending {d : Description} {handle : Handle}
    (hi : p.instantiate d = .ok (handle, q)) : q.state handle.id = .pending := by
  obtain ⟨rfl, rfl⟩ := instantiate_eq hi
  simp [making, allocate, state, task?]

/-- The children of every task are tasks of the plan. -/
def Peopled (p : Plan) : Prop :=
  ∀ parent, ∀ a ∈ p.childrenOf parent, (p.task? a.child.id).isSome = true

theorem Peopled.later (h : p.Peopled) (hp : p.Numbered) (hl : Later p q)
    (hc : ∀ parent, ∀ a ∈ q.childrenOf parent,
      a ∈ p.childrenOf parent ∨ (p.task? a.child.id).isSome = true) : q.Peopled := by
  intro parent a ha
  rcases hc parent a ha with hmem | hknown
  · exact hl.known hp (h parent a hmem)
  · exact hl.known hp hknown

theorem Reachable.peopled (h : p.Reachable) : p.Peopled := by
  induction h with
  | empty => exact fun _ _ ha => nomatch ha
  | withModels models _ ih => exact ih
  | @perform g g' c reply hg hc ih =>
    obtain ⟨hl, hspared⟩ := Ground.perform_ok hc
    refine ih.later hg.numbered hl fun parent a ha => ?_
    have same (hs : c.Spares parent) : a ∈ g.plan.childrenOf parent := hspared parent hs ▸ ha
    cases c with
    | attach p' task role =>
      obtain ⟨_, hknown, _, hchildren⟩ := attach_ok (Ground.granted_ok hc)
      rw [hchildren] at ha
      split at ha
      · rename_i he
        rcases List.mem_append.mp ha with ha | ha
        · exact .inl (he ▸ ha)
        · obtain rfl := List.mem_singleton.mp ha
          exact .inr hknown
      · exact .inl ha
    | detach p' task role =>
      obtain ⟨_, hchildren⟩ := detach_ok (Ground.granted_ok hc)
      rw [hchildren] at ha
      split at ha
      · rename_i he
        exact .inl (he ▸ List.mem_of_mem_eraseP ha)
      · exact .inl ha
    | _ => exact .inl (same trivial)

/-! ## Attaching -/

theorem contains_eq_isSome (p : Plan) (task : TaskId) :
    p.tasks.contains task = (p.task? task).isSome :=
  Dict.contains_eq_isSome ..

theorem attach_unknown {parent : TaskId} (h : p.task? parent = none) (child : Handle)
    (role : String) : p.attach parent child role = .error (.unknownTask parent.text) := by
  unfold attach
  rw [contains_eq_isSome, h]
  rfl

/-- A task that was just made can be attached under every task of the plan. -/
theorem exists_attach_new {parent : TaskId} {d : Description} {handle : Handle} (hp : p.Reachable)
    (hi : p.instantiate d = .ok (handle, q)) (hparent : (q.task? parent).isSome = true)
    (role : String) : ∃ r, q.attach parent handle role = .ok r := by
  obtain ⟨_, hc, hknown⟩ := instantiate_ok hi
  have hnew : ((q.childrenOf parent).any fun a => a.isOf handle.id role) = false := by
    rw [List.any_eq_false, childrenOf_congr hc]
    intro a ha hof
    have hchild := hp.peopled parent a ha
    rw [((isOf_iff a _ _).mp hof).1, instantiate_new hp.numbered hi] at hchild
    cases hchild
  unfold attach
  rw [contains_eq_isSome, contains_eq_isSome, hparent, hknown, hnew]
  exact ⟨_, rfl⟩

end Plan

namespace Slots

variable {s s' : Slots} {catalog : Catalog} {key : SlotKey} {source : Source} {root : TaskId}
  {scopes scopes' : Scopes} {p q : Plan} {e : Error}

theorem make_error {d : Description} {inWords : ProviderError → Unresolvable}
    (h : make p d inWords = (.error e, q)) : q = p := by
  unfold make at h
  split at h
  · cases h
  · cases h
    rfl

/-- Without a builder, a task that was obtained was there already or was just made. -/
theorem produce_ok {handle : Handle} (hs : ∀ name arguments, source ≠ .builder name arguments)
    (h : produce catalog root source scopes p = (.ok handle, scopes', q)) :
    q = p ∨ ∃ d, p.instantiate d = .ok (handle, q) := by
  cases source with
  | action | plan => exact .inr (produce_makes rfl h)
  | builder name arguments => exact absurd rfl (hs name arguments)
  | held name =>
    simp only [produce] at h
    split at h
    · cases h
    split at h
    · cases h
      exact .inl rfl
    · cases h

/-- Without a builder, no task is made where none is obtained. -/
theorem produce_error (hs : ∀ name arguments, source ≠ .builder name arguments)
    (h : produce catalog root source scopes p = (.error e, scopes', q)) : q = p := by
  cases source with
  | action name arguments =>
    simp only [produce] at h
    split at h
    · cases h
      rfl
    split at h
    · cases h
      rfl
    split at h
    · cases h
      rfl
    · rw [Prod.mk.injEq, Prod.mk.injEq] at h
      exact make_error (Prod.ext h.1 h.2.2)
  | builder name arguments => exact absurd rfl (hs name arguments)
  | held name =>
    simp only [produce] at h
    split at h
    · cases h
      rfl
    split at h
    · cases h
    · cases h
      rfl
  | plan name d =>
    simp only [produce, Prod.mk.injEq] at h
    exact make_error (Prod.ext h.1 h.2.2)

/-- A resolution that fails leaves the slots and all attachments as they were. Unless a builder
did something of its own, it leaves the whole plan as it was if the root is one of its tasks. If
not, then a task that was made for it stays behind, pending. -/
theorem failed_resolution_clean (hp : p.Reachable) (hcat : catalog.Modest)
    (h : s.resolve catalog key source scopes p = (.error e, s', scopes', q)) :
    s' = s ∧ q.children = p.children ∧
    ((∀ name arguments, source ≠ .builder name arguments) →
      q = p ∨
        p.task? s.root.id = none ∧ e = .provider (.unknownTask s.root.id.text) ∧
        ∃ d handle, p.instantiate d = .ok (handle, q) ∧ p.task? handle.id = none ∧
          q.state handle.id = .pending) := by
  obtain ⟨hs, hproduce | ⟨handle, refusal, hproduce, hrefused, he⟩⟩ := resolve_error h
  · obtain ⟨_, hc⟩ := (produce_grown hcat hproduce).ok
    exact ⟨hs, hc, fun hsource => .inl (produce_error hsource hproduce)⟩
  · obtain ⟨_, hc⟩ := (produce_grown hcat hproduce).ok
    refine ⟨hs, hc, fun hsource => ?_⟩
    rcases produce_ok hsource hproduce with hsame | ⟨d, hi⟩
    · exact .inl hsame
    cases hroot : q.task? s.root.id with
    | some t =>
      obtain ⟨r, hr⟩ := Plan.exists_attach_new hp hi (Option.isSome_iff_exists.mpr ⟨t, hroot⟩)
        (key.role s.rolePrefix)
      rw [hr] at hrefused
      cases hrefused
    | none =>
      rw [Plan.attach_unknown hroot] at hrefused
      cases hrefused
      have hunknown := (Plan.instantiate_ok hi).1.unknown hp.numbered hroot
      exact .inr ⟨hunknown, he, d, handle, hi, Plan.instantiate_new hp.numbered hi,
        Plan.instantiate_pending hi⟩

/-- No task of a model that is not known is made. -/
theorem failed_resolution_clean_limited :
    let p := Plan.sample.withModels ["Mission"]
    let r := Site.sample.slots.resolve .empty walk (.plan "go" ⟨"Goto", .empty⟩) .base p
    r.1 = .error (.unresolvableSource (.plan "go" (.unknownModel "Goto"))) ∧
      r.2.1 = Site.sample.slots ∧ r.2.2.2 = p := by
  intro p r
  have hp : p.Reachable := .withModels _ Plan.sample_reachable
  have hr : r.1 = .error (.unresolvableSource (.plan "go" (.unknownModel "Goto"))) := by decide
  obtain ⟨hs, _, hplan⟩ := failed_resolution_clean hp Catalog.Modest.empty (Prod.ext hr rfl)
  rcases hplan nofun with hsame | ⟨hunknown, _⟩
  · exact ⟨hr, hs, hsame⟩
  · cases hunknown

/-- Under a root that the plan does not know, the described task is made and cannot be attached. It
stays pending, and no slot will ever stop it. -/
theorem failed_resolution_orphans :
    let r := (Slots.new ⟨⟨"nowhere"⟩, "Mission"⟩ "coordination").resolve .empty walk
      (.plan "go" ⟨"Goto", .empty⟩) .base .sample
    Plan.sample.task? ⟨"task-2"⟩ = none ∧ r.1 = .error (.provider (.unknownTask "nowhere")) ∧
      r.2.1.live = [] ∧ r.2.2.2.instantiated = [⟨⟨"task-2"⟩, "Goto"⟩] ∧
      r.2.2.2.state ⟨"task-2"⟩ = .pending := by
  decide

end Slots

end Conductor
