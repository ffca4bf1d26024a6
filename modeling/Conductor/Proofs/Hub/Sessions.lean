import Conductor.Hub
import Conductor.Proofs.Session.Requests

/-!
The sessions of a hub. They come about by calls, on plans that have gone on in between, and no
delivery adds a session or removes one: it puts one session back in its place.
-/

namespace Conductor

/-- A session as hubs have it: calls led to it, and its builders do no more to a plan than to
ask. -/
structure Session.Hosted (s : Session) : Prop where
  reachable : s.Reachable
  civil : s.core.catalog.Civil

namespace Session.Hosted

variable {s : Session}

theorem call (h : s.Hosted) (p : Plan) (call : Call) : (Scene.call ⟨s, p⟩ call).session.Hosted where
  reachable := h.reachable.call p call
  civil := by
    rw [Scene.call_catalog (h.reachable.sound p) call]
    exact h.civil

theorem taken (h : s.Hosted) : s.takeInterestChanges.2.Hosted := ⟨h.reachable.taken, h.civil⟩

/-- Starting, telling and stopping a session asks the plan and does no more to it. -/
theorem asked (h : s.Hosted) (p : Plan) {call : Call} (hcall : ∀ command, call ≠ .drive command) :
    p.Asked (Scene.call ⟨s, p⟩ call).plan :=
  Scene.call_asked (h.reachable.sound p) h.civil hcall

end Session.Hosted

theorem Session.sample_hosted : Session.sample.Hosted :=
  ⟨.unstarted sample_unstarted, sample_modest.civil⟩

@[simp] theorem RunReport.followedBy_deliveries (a b : RunReport) :
    (a.followedBy b).deliveries = a.deliveries + b.deliveries :=
  rfl

namespace Hub

/-- The identifiers of the sessions, in their order. -/
def ids (h : Hub) : List String := h.sessions.map Session.id

variable {h : Hub}

theorem session?_mem {id : String} {s : Session} (hs : h.session? id = some s) :
    s ∈ h.sessions :=
  List.mem_of_find?_eq_some hs

theorem session?_id {id : String} {s : Session} (hs : h.session? id = some s) : s.id = id := by
  simpa using List.find?_some hs

theorem exists_session? {id : String} (hid : id ∈ h.ids) : ∃ s, h.session? id = some s := by
  obtain ⟨s, hs, rfl⟩ := List.mem_map.mp hid
  refine Option.isSome_iff_exists.mp (List.find?_isSome.mpr ⟨s, hs, ?_⟩)
  simp

/-- A session of a new name is taken in behind the others. -/
theorem add_of_new {s : Session} (hnew : s.id ∉ h.ids) :
    h.add s = { h with sessions := h.sessions ++ [s] } := by
  unfold add
  rw [if_neg]
  simpa [ids] using hnew

theorem nodup_ids_add (hids : h.ids.Nodup) {s : Session} (hnew : s.id ∉ h.ids) :
    (h.add s).ids.Nodup := by
  rw [add_of_new hnew, ids, List.map_append, List.map_singleton]
  refine List.nodup_append.mpr ⟨hids, by simp, ?_⟩
  rintro id hid _ hlast rfl
  exact hnew (List.mem_singleton.mp hlast ▸ hid)

theorem put_ids (h : Hub) (c : Scene) : (h.put c).ids = h.ids := by
  simp only [ids, put, List.map_map]
  refine List.map_congr_left fun s _ => ?_
  simp only [Function.comp]
  split
  · rename_i hid
    exact hid.symm
  · rfl

/-- Where identifiers are distinct, a session is put back in its own place. -/
theorem put_sessions (hids : h.ids.Nodup) {s : Session} (hs : s ∈ h.sessions) :
    ∃ before after, h.sessions = before ++ s :: after ∧
      ∀ c : Scene, c.session.id = s.id → (h.put c).sessions = before ++ c.session :: after := by
  obtain ⟨before, after, hsplit⟩ := List.append_of_mem hs
  refine ⟨before, after, hsplit, fun c hc => ?_⟩
  have hdistinct : (before.map Session.id ++ s.id :: after.map Session.id).Nodup := by
    simpa [ids, hsplit] using hids
  obtain ⟨_, hrest, hapart⟩ := List.nodup_append.mp hdistinct
  obtain ⟨hnot, _⟩ := List.nodup_cons.mp hrest
  have hbefore : ∀ t ∈ before, t.id ≠ c.session.id := by
    intro t ht
    rw [hc]
    exact hapart t.id (List.mem_map_of_mem ht) s.id List.mem_cons_self
  have hafter : ∀ t ∈ after, t.id ≠ c.session.id := by
    intro t ht he
    rw [hc] at he
    exact hnot (he ▸ List.mem_map_of_mem ht)
  have hkeep : ∀ l : List Session, (∀ t ∈ l, t.id ≠ c.session.id) →
      (l.map fun t => if t.id = c.session.id then c.session else t) = l := by
    intro l hl
    refine (List.map_congr_left fun t ht => if_neg (hl t ht)).trans (List.map_id l)
  simp only [put, hsplit, List.map_append, List.map_cons]
  rw [if_pos hc.symm, hkeep before hbefore, hkeep after hafter]

/-! ## What counting leaves alone -/

theorem count_eq (h : Hub) (change : InterestChange) :
    ∃ interest subscriptions,
      h.count change = { h with interest, plan := { h.plan with subscriptions } } := by
  cases change with
  | subscribe task event =>
    simp only [count]
    split <;> exact ⟨_, _, rfl⟩
  | unsubscribe task event =>
    simp only [count]
    split
    · exact ⟨_, _, rfl⟩
    · split <;> exact ⟨_, _, rfl⟩

theorem countAll_eq (changes : List InterestChange) (h : Hub) :
    ∃ interest subscriptions,
      changes.foldl count h = { h with interest, plan := { h.plan with subscriptions } } := by
  induction changes generalizing h with
  | nil => exact ⟨_, _, rfl⟩
  | cons change rest ih =>
    obtain ⟨_, _, hcount⟩ := h.count_eq change
    obtain ⟨interest, subscriptions, hrest⟩ := ih (h.count change)
    refine ⟨interest, subscriptions, ?_⟩
    rw [List.foldl_cons, hrest, hcount]

theorem settle_eq (h : Hub) (c : Scene) :
    ∃ interest subscriptions, h.settle c =
      { h.put { c with session := c.session.takeInterestChanges.2 } with
        interest, plan := { c.plan with subscriptions } } :=
  countAll_eq c.session.takeInterestChanges.1
    (h.put { c with session := c.session.takeInterestChanges.2 })

/-! ## Deliveries -/

theorem deliverTo_none {signal : Signal} {id : String} (hs : h.session? id = none) :
    h.deliverTo signal id = (.ended false, h) := by
  unfold deliverTo
  rw [hs]

theorem deliverTo_some {signal : Signal} {id : String} {s : Session}
    (hs : h.session? id = some s) :
    (h.deliverTo signal id).1.deliveries = 1 ∧
      (h.deliverTo signal id).2 = h.settle (Scene.deliver ⟨s, h.plan⟩ signal).2 := by
  unfold deliverTo
  rw [hs]
  exact ⟨rfl, rfl⟩

theorem deliverAll_cons (signal : Signal) (id : String) (rest : List String) (h : Hub) :
    deliverAll signal (id :: rest) h =
      ((h.deliverTo signal id).1.followedBy
          (deliverAll signal rest (h.deliverTo signal id).2).1,
        (deliverAll signal rest (h.deliverTo signal id).2).2) :=
  rfl

/-- What a hub keeps throughout deliveries. -/
structure Kept (h h' : Hub) : Prop where
  ids : h'.ids = h.ids
  queue : h'.queue = h.queue
  config : h'.config = h.config

namespace Kept

variable {h' h'' : Hub}

theorem refl (h : Hub) : Kept h h := ⟨rfl, rfl, rfl⟩

theorem trans (hk : Kept h h') (hk' : Kept h' h'') : Kept h h'' :=
  ⟨hk'.ids.trans hk.ids, hk'.queue.trans hk.queue, hk'.config.trans hk.config⟩

theorem settle (h : Hub) (c : Scene) : Kept h (h.settle c) := by
  obtain ⟨interest, subscriptions, hsettle⟩ := h.settle_eq c
  rw [hsettle]
  exact ⟨put_ids h _, rfl, rfl⟩

theorem deliverTo (h : Hub) (signal : Signal) (id : String) :
    Kept h (h.deliverTo signal id).2 := by
  cases hs : h.session? id with
  | none =>
    rw [deliverTo_none hs]
    exact refl h
  | some s =>
    rw [(deliverTo_some hs).2]
    exact settle h _

theorem deliverAll (signal : Signal) (targets : List String) (h : Hub) :
    Kept h (deliverAll signal targets h).2 := by
  induction targets generalizing h with
  | nil => exact refl h
  | cons id rest ih => exact (deliverTo h signal id).trans (ih _)

end Kept

/-- Every session that is there is told once. -/
theorem deliverAll_deliveries (signal : Signal) {targets : List String}
    (ht : ∀ id ∈ targets, id ∈ h.ids) :
    (deliverAll signal targets h).1.deliveries = targets.length := by
  induction targets generalizing h with
  | nil => rfl
  | cons id rest ih =>
    obtain ⟨s, hs⟩ := exists_session? (ht id List.mem_cons_self)
    have hrest := ih (h := (h.deliverTo signal id).2) fun other hother => by
      rw [(Kept.deliverTo h signal id).ids]
      exact ht other (List.mem_cons_of_mem _ hother)
    rw [deliverAll_cons, RunReport.followedBy_deliveries, hrest, (deliverTo_some hs).1, List.length_cons,
      Nat.add_comm]

theorem targets_sublist (h : Hub) (signal : Signal) : (h.targets signal).Sublist h.ids :=
  List.filter_sublist.map Session.id

end Hub

end Conductor
