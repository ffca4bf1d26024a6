import Conductor.Catalog
import Conductor.Ground
import Conductor.Proofs.Plan.Grants

/-!
How a plan goes on. Tasks are numbered as they are made, so no identifier is given out twice; with
that, a task that the plan knows stays known, and one that has ended stays as it ended unless it is
finalized. Attachments change by `attach` and `detach` alone.
-/

namespace Conductor

/-- A number is read back from its digits. -/
theorem toDigits_injective {m n : Nat} (h : Nat.toDigits 10 m = Nat.toDigits 10 n) : m = n :=
  calc
    m = Nat.ofDigitChars 10 (Nat.toDigits 10 m) 0 := by simp
    _ = Nat.ofDigitChars 10 (Nat.toDigits 10 n) 0 := by rw [h]
    _ = n := by simp

namespace TaskState

/-- What may become of a state: a task that has ended stays as it is or is finalized. -/
def Onward (s t : TaskState) : Prop := s.isTerminal = true → t = s ∨ t = .finalized

namespace Onward

variable {s t u : TaskState}

theorem refl (s : TaskState) : s.Onward s := fun _ => .inl rfl

theorem finalized (s : TaskState) : s.Onward .finalized := fun _ => .inr rfl

theorem of_not_ended (h : s.isTerminal = false) (t : TaskState) : s.Onward t :=
  fun he => absurd (he.symm.trans h) (by simp)

theorem ended (h : s.Onward t) (hs : s.isTerminal = true) : t.isTerminal = true := by
  rcases h hs with rfl | rfl
  · exact hs
  · rfl

theorem trans (h : s.Onward t) (h' : t.Onward u) : s.Onward u := by
  intro hs
  rcases h' (h.ended hs) with rfl | rfl
  · exact h hs
  · exact .inr rfl

end Onward

end TaskState

namespace Plan

theorem idOf_injective {m n : Nat} (h : idOf m = idOf n) : m = n := by
  have ht : "task-" ++ m.repr = "task-" ++ n.repr := congrArg TaskId.text h
  exact toDigits_injective (by simpa [← String.toList_inj] using ht)

/-- Every known task has one of the numbers that were given out. -/
def Numbered (p : Plan) : Prop := ∀ t x, p.task? t = some x → ∃ n ≤ p.made, t = idOf n

/-- From a numbered plan, another one is reached in which the known tasks are still known, in a state
that may have become of theirs. -/
def Later (p q : Plan) : Prop :=
  p.Numbered → q.Numbered ∧ ∀ t x, p.task? t = some x →
    ∃ y, q.task? t = some y ∧ x.state.Onward y.state

namespace Later

theorem refl (p : Plan) : Later p p := fun hp => ⟨hp, fun _ x hx => ⟨x, hx, .refl _⟩⟩

theorem trans {p q r : Plan} (hpq : Later p q) (hqr : Later q r) : Later p r := by
  intro hp
  obtain ⟨hq, hpq⟩ := hpq hp
  obtain ⟨hr, hqr⟩ := hqr hq
  refine ⟨hr, fun t x hx => ?_⟩
  obtain ⟨y, hy, hxy⟩ := hpq t x hx
  obtain ⟨z, hz, hyz⟩ := hqr t y hy
  exact ⟨z, hz, hxy.trans hyz⟩

/-- Where no task is made, it is enough to look at the states. -/
theorem of_states {p q : Plan} (hm : q.made = p.made)
    (hn : ∀ t, p.task? t = none → q.task? t = none)
    (hs : ∀ t x, p.task? t = some x → ∃ y, q.task? t = some y ∧ x.state.Onward y.state) :
    Later p q := by
  refine fun hp => ⟨fun t y hy => ?_, hs⟩
  rw [hm]
  cases hx : p.task? t with
  | none => simp [hn t hx] at hy
  | some x => exact hp t x hx

theorem of_tasks_eq {p q : Plan} (hm : q.made = p.made) (ht : q.tasks = p.tasks) : Later p q := by
  refine of_states hm (fun t h => ?_) (fun t x h => ⟨x, ?_, .refl _⟩)
  · simpa [task?, ht] using h
  · simpa [task?, ht] using h

/-- One known task is changed, in a way that does not bring it back. -/
theorem of_insert {p q : Plan} {task : TaskId} {x y : Task} (hm : q.made = p.made)
    (hx : p.task? task = some x) (ht : q.tasks = p.tasks.insert task y)
    (hxy : x.state.Onward y.state) : Later p q := by
  have hq : ∀ t, q.task? t = if t = task then some y else p.task? t := by
    intro t
    rw [task?, ht, Dict.get?_insert]
    rfl
  refine of_states hm (fun t h => ?_) (fun t z h => ?_)
  · have hne : t ≠ task := by
      rintro rfl
      simp [hx] at h
    rw [hq, if_neg hne, h]
  · by_cases he : t = task
    · obtain rfl : x = z := by
        rw [he, hx] at h
        exact Option.some.inj h
      exact ⟨y, by rw [hq, if_pos he], hxy⟩
    · exact ⟨z, by rw [hq, if_neg he, h], .refl _⟩

theorem of_modify {p q : Plan} {task : TaskId} {f : Task → Task} (hm : q.made = p.made)
    (ht : q.tasks = p.tasks.modify task f)
    (hf : ∀ x : Task, x.state.Onward (f x).state) : Later p q := by
  unfold Dict.modify at ht
  cases hx : p.tasks.get? task with
  | none =>
    rw [hx] at ht
    exact of_tasks_eq hm ht
  | some x =>
    rw [hx] at ht
    exact of_insert hm hx ht (hf x)

theorem known {p q : Plan} (h : Later p q) (hp : p.Numbered) {t : TaskId}
    (ht : (p.task? t).isSome = true) : (q.task? t).isSome = true := by
  obtain ⟨x, hx⟩ := Option.isSome_iff_exists.mp ht
  obtain ⟨y, hy, _⟩ := (h hp).2 t x hx
  simp [hy]

theorem unknown {p q : Plan} (h : Later p q) (hp : p.Numbered) {t : TaskId}
    (ht : q.task? t = none) : p.task? t = none := by
  refine Option.not_isSome_iff_eq_none.mp fun hknown => ?_
  have hlater := h.known hp hknown
  rw [ht] at hlater
  cases hlater

theorem ended {p q : Plan} (h : Later p q) (hp : p.Numbered) {t : TaskId}
    (ht : (p.task? t).isSome = true) (he : (p.state t).isTerminal = true) :
    (q.state t).isTerminal = true := by
  obtain ⟨x, hx⟩ := Option.isSome_iff_exists.mp ht
  obtain ⟨y, hy, hxy⟩ := (h hp).2 t x hx
  have hs : x.state.isTerminal = true := by simpa [state, hx] using he
  simpa [state, hy] using hxy.ended hs

end Later

/-! ## Operations -/

/-- The number that is given out next is new. -/
theorem Numbered.task?_next {p : Plan} (hp : p.Numbered) : p.task? (idOf (p.made + 1)) = none := by
  cases ht : p.task? (idOf (p.made + 1)) with
  | none => rfl
  | some x =>
    obtain ⟨n, hn, hid⟩ := hp _ x ht
    have := idOf_injective hid
    omega

theorem allocate_later (p : Plan) (model : String) (state : TaskState)
    (arguments : Dict String Value) : Later p (p.allocate model state arguments).2 := by
  have hq : ∀ t, (p.allocate model state arguments).2.task? t =
      if t = idOf (p.made + 1) then some ⟨state, arguments⟩ else p.task? t := by
    intro t
    exact Dict.get?_insert ..
  intro hp
  refine ⟨fun t y hy => ?_, fun t x hx => ⟨x, ?_, .refl _⟩⟩
  · rw [hq] at hy
    split at hy
    · rename_i h
      exact ⟨p.made + 1, Nat.le_refl _, h⟩
    · obtain ⟨n, hn, ht⟩ := hp t y hy
      exact ⟨n, Nat.le_succ_of_le hn, ht⟩
  · have hne : t ≠ idOf (p.made + 1) := by
      rintro rfl
      cases hp.task?_next.symm.trans hx
    rw [hq, if_neg hne, hx]

theorem next_onward (state : TaskState) (event : EventName) : state.Onward (next state event) := by
  intro h
  unfold next
  split
  · exact .inr rfl
  · exact .inl rfl

theorem record_later (p : Plan) (e : Event) : Later p (p.record e) :=
  .of_modify rfl rfl fun x => next_onward x.state e.name

theorem observe_later (p : Plan) (e : Event) : Later p (p.observe e) :=
  (record_later p e).trans (.of_tasks_eq rfl rfl)

theorem setRootArgument_later (p : Plan) (task : TaskId) (name : String) (value : Value) :
    Later p (p.setRootArgument task name value) :=
  .of_modify rfl rfl fun _ => .refl _

theorem instantiate_ok {p q : Plan} {d : Description} {h : Handle}
    (hi : p.instantiate d = .ok (h, q)) :
    Later p q ∧ q.children = p.children ∧ (q.task? h.id).isSome = true := by
  obtain ⟨rfl, rfl⟩ := instantiate_eq hi
  refine ⟨(allocate_later p d.model .pending d.arguments).trans (.of_tasks_eq rfl rfl), rfl, ?_⟩
  simp [making, task?, allocate]

theorem start_ok {p q : Plan} {task : Handle} (hs : p.start task = .ok q) :
    Later p q ∧ q.children = p.children := by
  obtain ⟨t, ht, hpending, rfl⟩ | ⟨-, rfl⟩ := start_eq hs
  · have hstarted : Later p
        { p with tasks := p.tasks.insert task.id { t with state := .started } } :=
      .of_insert rfl ht rfl (.of_not_ended (by rw [hpending]; rfl) _)
    exact ⟨hstarted.trans (observe_later _ _), rfl⟩
  · exact ⟨.refl q, rfl⟩

theorem stop_ok {p q : Plan} {task : TaskId} (hs : p.stop task = .ok q) :
    Later p q ∧ q.children = p.children ∧ (q.state task).isTerminal = true := by
  obtain ⟨t, ht, rfl⟩ := stop_eq hs
  have honward : t.state.Onward (if t.state.isTerminal then t.state else .finalized) := by
    split
    · exact .refl _
    · exact .finalized _
  refine ⟨.of_insert rfl ht rfl honward, rfl, ?_⟩
  have hend :
      (if t.state.isTerminal then t.state else TaskState.finalized).isTerminal = true := by
    split
    · assumption
    · rfl
  simpa [stopping, state, task?] using hend

/-- A task that the plan knows can always be asked to stop. -/
theorem exists_stop {p : Plan} {task : TaskId} (h : (p.task? task).isSome = true) :
    ∃ q, p.stop task = .ok q := by
  obtain ⟨t, ht⟩ := Option.isSome_iff_exists.mp h
  unfold stop
  rw [ht]
  exact ⟨_, rfl⟩

theorem emit_ok {p q : Plan} {task : TaskId} {event : EventName} {payload : Option Value}
    (he : p.emit task event payload = .ok q) : Later p q ∧ q.children = p.children := by
  obtain rfl := emit_eq he
  exact ⟨(Later.of_tasks_eq rfl rfl).trans (observe_later _ _), rfl⟩

/-! ## Attachments -/

theorem childrenOf_congr {p q : Plan} (h : q.children = p.children) (parent : TaskId) :
    q.childrenOf parent = p.childrenOf parent := by
  rw [childrenOf, h, childrenOf]

theorem isOf_iff (a : Attachment) (task : TaskId) (role : String) :
    a.isOf task role = true ↔ a.child.id = task ∧ a.role = role := by
  simp [Attachment.isOf]

theorem isOf_self (a : Attachment) : a.isOf a.child.id a.role = true :=
  (isOf_iff ..).mpr ⟨rfl, rfl⟩

theorem isOf_eq_false_iff (a : Attachment) (task : TaskId) (role : String) :
    a.isOf task role = false ↔ (a.child.id = task → a.role ≠ role) := by
  simp [Attachment.isOf]

theorem isOf_eq_false_comm {a b : Attachment} :
    a.isOf b.child.id b.role = false ↔ b.isOf a.child.id a.role = false := by
  rw [isOf_eq_false_iff, isOf_eq_false_iff]
  exact ⟨fun h hid hrole => h hid.symm hrole.symm, fun h hid hrole => h hid.symm hrole.symm⟩

theorem attach_ok {p q : Plan} {parent : TaskId} {child : Handle} {role : String}
    (h : p.attach parent child role = .ok q) :
    Later p q ∧ (p.task? child.id).isSome = true ∧
      (∀ a ∈ p.childrenOf parent, a.isOf child.id role = false) ∧
      (∀ other, q.childrenOf other =
        if other = parent then p.childrenOf parent ++ [⟨child, role⟩] else p.childrenOf other) := by
  obtain ⟨hknown, hnew, rfl⟩ := attach_eq h
  exact ⟨.of_tasks_eq rfl rfl, hknown, hnew, childrenOf_adding p parent ⟨child, role⟩⟩

theorem detach_ok {p q : Plan} {parent : TaskId} {child : Handle} {role : String}
    (h : p.detach parent child role = .ok q) :
    Later p q ∧ (∀ other, q.childrenOf other =
      if other = parent then (p.childrenOf parent).eraseP fun a => a.isOf child.id role
      else p.childrenOf other) := by
  obtain rfl := detach_eq h
  obtain ⟨children, he⟩ := p.leaving_eq parent
    ((p.childrenOf parent).eraseP fun a => a.isOf child.id role)
  refine ⟨?_, childrenOf_leaving p parent _⟩
  rw [he]
  exact .of_tasks_eq rfl rfl

/-- What is attached can always be detached. -/
theorem exists_detach {p : Plan} {parent : TaskId} {child : Handle} {role : String}
    (h : ∃ a ∈ p.childrenOf parent, a.isOf child.id role = true) :
    ∃ q, p.detach parent child role = .ok q := by
  unfold detach
  rw [if_pos (List.any_eq_true.mpr h)]
  split
  · exact ⟨_, rfl⟩
  · exact ⟨_, rfl⟩

/-! ## Builders that make tasks and start them -/

/-- One plan comes from another by making tasks and starting them. -/
inductive Grown (p : Plan) : Plan → Prop where
  | refl : Grown p p
  | instantiate {q r : Plan} {d : Description} {h : Handle} :
    Grown p q → q.instantiate d = .ok (h, r) → Grown p r
  | start {q r : Plan} {h : Handle} : Grown p q → q.start h = .ok r → Grown p r

theorem Grown.ok {p q : Plan} (h : Grown p q) : Later p q ∧ q.children = p.children := by
  induction h with
  | refl => exact ⟨.refl p, rfl⟩
  | instantiate _ hi ih =>
    obtain ⟨hl, hc, _⟩ := instantiate_ok hi
    exact ⟨ih.1.trans hl, hc.trans ih.2⟩
  | start _ hs ih =>
    obtain ⟨hl, hc⟩ := start_ok hs
    exact ⟨ih.1.trans hl, hc.trans ih.2⟩

end Plan

/-- A builder that does nothing to the plan but make tasks and start them. -/
def Builder.Modest (b : Builder) : Prop := ∀ arguments p, Plan.Grown p (b arguments p).2

def Catalog.Modest (c : Catalog) : Prop := ∀ name b, c.builders.get? name = some b → b.Modest

namespace Builder

theorem reject_modest (reason : String) : (reject reason).Modest := fun _ _ => .refl

theorem fixed_modest (handle : Handle) : (fixed handle).Modest := fun _ _ => .refl

theorem fresh_modest (model : String) : (fresh model).Modest := by
  intro arguments p
  unfold fresh
  split
  · rename_i hi
    exact .instantiate .refl hi
  · exact .refl

theorem started_modest (model : String) : (started model).Modest := by
  intro arguments p
  unfold started
  split
  · rename_i hi
    split
    · rename_i hs
      exact .start (.instantiate .refl hi) hs
    · exact .instantiate .refl hi
  · exact .refl

theorem given_modest (argument reason : String) : (given argument reason).Modest := by
  intro arguments p
  unfold given
  split <;> exact .refl

end Builder

namespace Catalog.Modest

theorem empty : Catalog.empty.Modest := fun _ _ hb => nomatch hb

theorem addBuilder {c : Catalog} (h : c.Modest) (name : String) {b : Builder} (hb : b.Modest) :
    (c.addBuilder name b).Modest := by
  intro other b' hb'
  have hget : (c.builders.insert name b).get? other = some b' := hb'
  rw [Dict.get?_insert] at hget
  split at hget
  · cases hget
    exact hb
  · exact h other b' hget

end Catalog.Modest

/-! ## Commands from outside -/

/-- A command that attaches nothing under the given task and detaches nothing from it. -/
def Ground.Command.Spares (parent : TaskId) : Ground.Command → Prop
  | .attach p .. | .detach p .. => p.id ≠ parent
  | _ => True

namespace Ground

theorem granted_eq {g g' : Ground} {r : Except ProviderError Plan} {reply : Reply}
    (h : g.granted r = .ok (reply, g')) : reply = .done ∧ r = .ok g'.plan := by
  unfold granted at h
  cases r with
  | error e => cases h
  | ok plan =>
    cases h
    exact ⟨rfl, rfl⟩

theorem granted_ok {g g' : Ground} {r : Except ProviderError Plan} {reply : Reply}
    (h : g.granted r = .ok (reply, g')) : r = .ok g'.plan :=
  (granted_eq h).2

theorem instantiate_cases {g g' : Ground} {d : Description} {reply : Reply}
    (h : g.perform (.instantiate d) = .ok (reply, g')) :
    ∃ task, reply = .handle task ∧ g.plan.instantiate d = .ok (task, g'.plan) := by
  cases hi : g.plan.instantiate d with
  | error e => simp [perform, hi, Except.map] at h
  | ok made =>
    simp only [perform, hi, Except.map] at h
    cases h
    exact ⟨made.1, rfl, rfl⟩

/-- A command lets the plan go on. What is attached changes when a child is attached or detached, and
at no other time. -/
theorem perform_cases {g g' : Ground} {c : Command} {reply : Reply}
    (h : g.perform c = .ok (reply, g')) :
    Plan.Later g.plan g'.plan ∧
      (g'.plan.children = g.plan.children ∨
        ∃ parent task role,
          (c = .attach parent task role ∧ g.plan.attach parent.id task role = .ok g'.plan) ∨
          (c = .detach parent task role ∧ g.plan.detach parent.id task role = .ok g'.plan)) := by
  cases c with
  | happen task event payload =>
    cases h
    exact ⟨Plan.observe_later _ _, .inl rfl⟩
  | record e =>
    cases h
    exact ⟨Plan.record_later _ e, .inl rfl⟩
  | addRoot model =>
    cases h
    exact ⟨Plan.allocate_later _ model .running .empty, .inl rfl⟩
  | instantiate d =>
    obtain ⟨_, _, hi⟩ := instantiate_cases h
    obtain ⟨hl, hc, _⟩ := Plan.instantiate_ok hi
    exact ⟨hl, .inl hc⟩
  | start task => exact (Plan.start_ok (granted_ok h)).imp id .inl
  | stop task =>
    obtain ⟨hl, hc, _⟩ := Plan.stop_ok (granted_ok h)
    exact ⟨hl, .inl hc⟩
  | attach parent task role =>
    exact ⟨(Plan.attach_ok (granted_ok h)).1, .inr ⟨_, _, _, .inl ⟨rfl, granted_ok h⟩⟩⟩
  | detach parent task role =>
    exact ⟨(Plan.detach_ok (granted_ok h)).1, .inr ⟨_, _, _, .inr ⟨rfl, granted_ok h⟩⟩⟩
  | setArgument task name value =>
    rw [Plan.setArgument_eq (granted_ok h)]
    exact ⟨Plan.setRootArgument_later _ task.id name value, .inl rfl⟩
  | setRootArgument task name value =>
    cases h
    exact ⟨Plan.setRootArgument_later _ task.id name value, .inl rfl⟩
  | emit task event payload => exact (Plan.emit_ok (granted_ok h)).imp id .inl
  | raise | argument | state | ancestry | poll | subscribe | unsubscribe | isSubscribed =>
    cases h
    exact ⟨.of_tasks_eq rfl rfl, .inl rfl⟩

theorem perform_ok {g g' : Ground} {c : Command} {reply : Reply}
    (h : g.perform c = .ok (reply, g')) :
    Plan.Later g.plan g'.plan ∧
      ∀ parent, c.Spares parent → g'.plan.childrenOf parent = g.plan.childrenOf parent := by
  obtain ⟨hl, hsame | ⟨parent, task, role, ⟨rfl, ha⟩ | ⟨rfl, hd⟩⟩⟩ := perform_cases h
  · exact ⟨hl, fun parent _ => Plan.childrenOf_congr hsame parent⟩
  · obtain ⟨_, _, _, hc⟩ := Plan.attach_ok ha
    exact ⟨hl, fun other hs => by rw [hc, if_neg (Ne.symm hs)]⟩
  · obtain ⟨_, hc⟩ := Plan.detach_ok hd
    exact ⟨hl, fun other hs => by rw [hc, if_neg (Ne.symm hs)]⟩

end Ground

/-- The plans that commands lead to. -/
inductive Plan.Reachable : Plan → Prop where
  | empty : Reachable .empty
  | withModels {p : Plan} (models : List String) : Reachable p → Reachable (p.withModels models)
  | perform {g g' : Ground} {c : Ground.Command} {reply : Ground.Reply} :
    Reachable g.plan → g.perform c = .ok (reply, g') → Reachable g'.plan

theorem Plan.Reachable.numbered {p : Plan} (h : p.Reachable) : p.Numbered := by
  induction h with
  | empty =>
    intro t x hx
    cases hx
  | withModels models _ ih => exact ih
  | perform _ hc ih => exact ((Ground.perform_ok hc).1 ih).1

end Conductor
