import Conductor.Proofs.Hub.Loop

/-!
The counting of interests. A hub counts for each event how many of its sessions wait for it, from
the changes that the sessions note one by one, and the plan is subscribed to exactly the events
that some session waits for.
-/

namespace Conductor

theorem KeySet.contains_erase {κ : Type} [Key κ] [DecidableEq κ] (s : KeySet κ) (key other : κ) :
    Dict.contains (s.erase key) other = (!decide (other = key) && s.contains other) := by
  rw [Dict.contains_eq_isSome, Dict.contains_eq_isSome, Dict.get?_erase]
  split
  · rename_i h
    simp [h]
  · rename_i h
    simp [h]

/-! ## Sessions at rest -/

/-- A session between its calls, all of whose changes were taken. -/
structure Session.Resting (s : Session) : Prop where
  hosted : s.Hosted
  told : s.core.interests.changes = []
  quiet : s.isRunning = false → ∀ p, s.core.interests.covers p = false

theorem Session.Unstarted.resting {root : Handle} {s : Session} (h : s.Unstarted root)
    (hcat : s.core.catalog.Civil) : s.Resting := by
  have hempty : s.core.interests = .empty := by
    clear hcat
    induction h with
    | new id model => rfl
    | withConfig config _ ih | withCatalog catalog _ ih | withTable t _ ih => exact ih
  refine ⟨⟨.unstarted h, hcat⟩, ?_, ?_⟩
  · rw [hempty]
    rfl
  · rw [hempty]
    exact fun _ _ => rfl

/-- The changes that a call leads to are those of what the session waits for. -/
theorem Session.Resting.call {s : Session} (h : s.Resting) (p : Plan) (call : Call) :
    InterestChange.Leads s.core.interests.covers
        (Scene.call ⟨s, p⟩ call).session.core.interests.changes
        (Scene.call ⟨s, p⟩ call).session.core.interests.covers ∧
      (Scene.call ⟨s, p⟩ call).session.takeInterestChanges.2.Resting := by
  have hbefore : Scene.Tells s.core.interests.covers ⟨s, p⟩ := by
    refine ⟨?_, h.quiet⟩
    show InterestChange.Leads s.core.interests.covers s.core.interests.changes _
    rw [h.told]
    exact .nil _
  have hafter := hbefore.call (h.hosted.reachable.sound p) call
  exact ⟨hafter.told, (h.hosted.call p call).taken, rfl, hafter.quiet⟩

namespace Hub

variable {h : Hub} {n : Interest → Nat}

/-! ## One change -/

/-- Counts as given, with no entry for what is not counted, and the plan subscribed to what is. -/
structure Tallied (h : Hub) (n : Interest → Nat) : Prop where
  counts : ∀ p, h.interest.get? p = if n p = 0 then none else some (n p)
  subscribed : ∀ p, h.plan.subscriptions.contains p = true ↔ n p ≠ 0

namespace Tallied

theorem subscribe (ht : h.Tallied n) (p : Interest) :
    (h.count (.of p true)).Tallied (Function.update n p (n p + 1)) := by
  have hcounted : (h.interest.get? p).getD 0 = n p := by
    rw [ht.counts p]
    split
    · rename_i hzero
      exact hzero.symm
    · rfl
  have hcount : h.count (.of p true) = { h with
      interest := h.interest.insert p (n p + 1)
      plan := if n p = 0 then h.plan.subscribe p.1 p.2 else h.plan } := by
    simp only [InterestChange.of, count, hcounted]
    split <;> rfl
  rw [hcount]
  constructor
  · intro q
    simp only [Dict.get?_insert]
    by_cases hq : q = p
    · simp [hq]
    · simp [hq, ht.counts q]
  · intro q
    by_cases hzero : n p = 0
    · simp only [hzero, if_true, Plan.subscribe, KeySet.contains_add]
      by_cases hq : q = p
      · simp [hq]
      · simp [hq, ht.subscribed q]
    · simp only [hzero, if_false, ht.subscribed q]
      by_cases hq : q = p
      · simp [hq, hzero]
      · simp [hq]

theorem unsubscribe (ht : h.Tallied n) {p : Interest} (hp : n p ≠ 0) :
    (h.count (.of p false)).Tallied (Function.update n p (n p - 1)) := by
  have hcounted : h.interest.get? p = some (n p) := by rw [ht.counts p, if_neg hp]
  by_cases hlast : n p ≤ 1
  · have hcount : h.count (.of p false) = { h with
        interest := h.interest.erase p, plan := h.plan.unsubscribe p.1 p.2 } := by
      simp only [InterestChange.of, count, hcounted, hlast, if_true]
    have hone : n p - 1 = 0 := by omega
    rw [hcount, hone]
    constructor
    · intro q
      simp only [Dict.get?_erase]
      by_cases hq : q = p
      · simp [hq]
      · simp [hq, ht.counts q]
    · intro q
      simp only [Plan.unsubscribe, KeySet.contains_erase]
      by_cases hq : q = p
      · simp [hq]
      · simp [hq, ht.subscribed q]
  · have hcount : h.count (.of p false) = { h with
        interest := h.interest.insert p (n p - 1) } := by
      simp only [InterestChange.of, count, hcounted, hlast, if_false]
    have hmore : n p - 1 ≠ 0 := by omega
    rw [hcount]
    constructor
    · intro q
      simp only [Dict.get?_insert]
      by_cases hq : q = p
      · simp [hq, hmore]
      · simp [hq, ht.counts q]
    · intro q
      simp only [ht.subscribed q]
      by_cases hq : q = p
      · simp [hq, hp, hmore]
      · simp [hq]

/-- Beside what others wait for, the changes of one session take its part in the counts from what
was known of it to what it waits for now. -/
theorem leads {known known' : Interest → Bool} {changes : List InterestChange}
    (hl : InterestChange.Leads known changes known') {others : Interest → Nat}
    (ht : h.Tallied fun p => others p + (known p).toNat) :
    (changes.foldl count h).Tallied fun p => others p + (known' p).toNat := by
  induction hl generalizing h with
  | nil => exact ht
  | @cons known _ _ p wanted hp _ ih =>
    refine ih ?_
    have hupdate : ∀ k, k = others p + wanted.toNat →
        Function.update (fun q => others q + (known q).toNat) p k =
          fun q => others q + (Function.update known p wanted q).toNat := by
      intro k hk
      funext q
      by_cases hq : q = p
      · rw [hq, Function.update_self, Function.update_self, hk]
      · rw [Function.update_of_ne hq, Function.update_of_ne hq]
    cases wanted with
    | true =>
      have hk : others p + (known p).toNat + 1 = others p + true.toNat := by simp [hp]
      rw [← hupdate _ hk]
      exact ht.subscribe p
    | false =>
      have hk : others p + (known p).toNat - 1 = others p + false.toNat := by simp [hp]
      rw [← hupdate _ hk]
      exact ht.unsubscribe (by simp [hp])

end Tallied

/-! ## All sessions -/

/-- How many sessions wait for an event. -/
def waiting (h : Hub) (p : Interest) : Nat :=
  h.sessions.countP fun s => s.core.interests.covers p

/-- The sessions of a hub are at rest, each under a name of its own, and their interests are
counted. -/
structure Accounted (h : Hub) : Prop where
  ids : h.ids.Nodup
  resting : ∀ s ∈ h.sessions, s.Resting
  tallied : h.Tallied h.waiting

namespace Accounted

variable {h' : Hub}

theorem of_same (ha : h.Accounted) (hs : h'.sessions = h.sessions)
    (hi : h'.interest = h.interest)
    (hp : h'.plan.subscriptions = h.plan.subscriptions) : h'.Accounted where
  ids := by
    rw [Hub.ids, hs]
    exact ha.ids
  resting := by
    rw [hs]
    exact ha.resting
  tallied := by
    have hwaiting : h'.waiting = h.waiting := by
      funext p
      rw [waiting, hs, waiting]
    constructor
    · rw [hi, hwaiting]
      exact ha.tallied.counts
    · rw [hp, hwaiting]
      exact ha.tallied.subscribed

/-- After a call on one session, its changes are counted. -/
theorem settle (ha : h.Accounted) {s : Session} (hs : s ∈ h.sessions) {call : Call}
    (hcall : ∀ command, call ≠ .drive command) :
    (h.settle (Scene.call ⟨s, h.plan⟩ call)).Accounted := by
  have hresting := ha.resting s hs
  obtain ⟨hleads, hafter⟩ := hresting.call h.plan call
  have hid := Scene.call_id (hresting.hosted.reachable.sound h.plan) call
  have hplan := (hresting.hosted.asked h.plan hcall).subscriptions
  obtain ⟨before, after, hsplit, hput⟩ := put_sessions ha.ids hs
  generalize Scene.call ⟨s, h.plan⟩ call = c at hleads hafter hid hplan
  have hsessions : (h.settle c).sessions =
      before ++ c.session.takeInterestChanges.2 :: after := by
    obtain ⟨_, _, hsettle⟩ := h.settle_eq c
    rw [hsettle]
    exact hput { c with session := c.session.takeInterestChanges.2 } hid
  have hwaiting : ∀ (g : Hub) (t : Session), g.sessions = before ++ t :: after →
      g.waiting = fun p => (before ++ after).countP (fun u => u.core.interests.covers p) +
        (t.core.interests.covers p).toNat := by
    intro g t hg
    funext p
    rw [waiting, hg]
    simp only [List.countP_append, List.countP_cons]
    cases t.core.interests.covers p
    · simp
    · simp [Nat.add_assoc]
  refine ⟨?_, ?_, ?_⟩
  · rw [(Kept.settle h c).ids]
    exact ha.ids
  · rw [hsessions]
    intro t ht
    rcases List.mem_append.mp ht with ht | ht
    · exact ha.resting t (hsplit ▸ List.mem_append_left _ ht)
    rcases List.mem_cons.mp ht with rfl | ht
    · exact hafter
    · exact ha.resting t (hsplit ▸ List.mem_append_right _ (List.mem_cons_of_mem _ ht))
  · -- The other sessions keep their part in the counts; that of this one follows its changes.
    rw [hwaiting _ _ hsessions]
    refine Tallied.leads (h := h.put { c with session := c.session.takeInterestChanges.2 })
      hleads ?_
    rw [← hwaiting h s hsplit]
    refine ⟨ha.tallied.counts, fun p => ?_⟩
    show c.plan.subscriptions.contains p = true ↔ _
    rw [hplan]
    exact ha.tallied.subscribed p

theorem deliverTo (ha : h.Accounted) (signal : Signal) (id : String) :
    (h.deliverTo signal id).2.Accounted := by
  cases hs : h.session? id with
  | none =>
    rw [deliverTo_none hs]
    exact ha
  | some s =>
    have hcall : ∀ command, Call.deliver signal ≠ .drive command := fun _ => nofun
    rw [(deliverTo_some hs).2]
    exact ha.settle (session?_mem hs) hcall

theorem deliverAll (ha : h.Accounted) (signal : Signal) (targets : List String) :
    (deliverAll signal targets h).2.Accounted := by
  induction targets generalizing h with
  | nil => exact ha
  | cons id rest ih => exact ih (ha.deliverTo signal id)

theorem pump (ha : h.Accounted) : h.pump.2.Accounted := ha.of_same rfl rfl rfl

theorem serve (ha : h.Accounted) (signal : Signal) (rest : List Signal) :
    (h.serve signal rest).2.Accounted := by
  have hqueued : { h with queue := rest }.Accounted := ha.of_same rfl rfl rfl
  exact (hqueued.deliverAll signal (h.targets signal)).pump

theorem run (ha : h.Accounted) : h.runUntilIdle.2.Accounted := by
  obtain ⟨_, _, hl⟩ := run_loop h
  have hloop : ∀ {cap delivered : Nat} {h h' : Hub} {taken made report},
      Loop cap delivered h taken made report h' → h.Accounted → h'.Accounted := by
    intro _ _ _ _ _ _ _ hl
    induction hl with
    | idle | full => exact id
    | take _ _ _ ih => exact fun ha => ih (ha.serve _ _)
  exact hloop hl ha.pump

end Accounted

/-! ## What is done with a hub -/

namespace Accounted

theorem empty {plan : Plan} (hp : plan.subscriptions = .empty) (config : HubConfig) :
    { Hub.new plan with config }.Accounted where
  ids := .nil
  resting := by simp [Hub.new]
  tallied := by
    constructor
    · intro p
      rfl
    · intro p
      show plan.subscriptions.contains p = true ↔ (0 : Nat) ≠ 0
      rw [hp]
      simp [Dict.contains, Dict.empty]

/-- A session that waits for nothing yet is taken in under a new name. -/
theorem add (ha : h.Accounted) {root : Handle} {s : Session} (hs : s.Unstarted root)
    (hcat : s.core.catalog.Civil) (hnew : s.id ∉ h.ids) : (h.add s).Accounted := by
  have hids := nodup_ids_add ha.ids hnew
  have hresting := hs.resting hcat
  have hcovers : ∀ p, s.core.interests.covers p = false := by
    refine hresting.quiet ?_
    rw [Session.isRunning, hs.fresh.status]
    rfl
  have hwaiting : { h with sessions := h.sessions ++ [s] }.waiting = h.waiting := by
    funext p
    simp [waiting, hcovers p]
  rw [add_of_new hnew] at hids ⊢
  refine ⟨hids, ?_, ?_, ?_⟩
  · intro t ht
    rcases List.mem_append.mp ht with ht | ht
    · exact ha.resting t ht
    · exact List.mem_singleton.mp ht ▸ hresting
  · rw [hwaiting]
    exact ha.tallied.counts
  · rw [hwaiting]
    exact ha.tallied.subscribed

theorem arrange (ha : h.Accounted) {sessions : List Session} (hperm : sessions.Perm h.sessions) :
    { h with sessions }.Accounted := by
  have hwaiting : { h with sessions }.waiting = h.waiting := by
    funext p
    exact hperm.countP_eq _
  refine ⟨(hperm.map Session.id).nodup_iff.mpr ha.ids, ?_, ?_, ?_⟩
  · exact fun s hs => ha.resting s (hperm.mem_iff.mp hs)
  · rw [hwaiting]
    exact ha.tallied.counts
  · rw [hwaiting]
    exact ha.tallied.subscribed

theorem start (ha : h.Accounted) (id : String) : (h.start id).2.Accounted := by
  unfold Hub.start
  split
  · exact ha
  · rename_i s hs
    have hcall : ∀ command, Call.start ≠ .drive command := fun _ => nofun
    exact ha.settle (session?_mem hs) hcall

theorem stop (ha : h.Accounted) (id : String) : (h.stop id).2.Accounted := by
  unfold Hub.stop
  split
  · exact ha
  · rename_i s hs
    have hcall : ∀ command, Call.stop ≠ .drive command := fun _ => nofun
    exact ha.settle (session?_mem hs) hcall

/-- The sessions that are removed wait for nothing any longer. -/
theorem reap (ha : h.Accounted) : h.reap.2.Accounted := by
  have hreap : h.reap.2 =
      { h with sessions := h.sessions.filter fun s => !s.status.isTerminal } := by
    simp [Hub.reap, List.partition_eq_filter_filter, Function.comp_def]
  have hsub : (h.sessions.filter fun s => !s.status.isTerminal).Sublist h.sessions :=
    List.filter_sublist
  have hwaiting :
      { h with sessions := h.sessions.filter fun s => !s.status.isTerminal }.waiting =
        h.waiting := by
    funext p
    simp only [waiting, List.countP_filter]
    refine List.countP_congr fun s hs => ?_
    cases ht : s.status.isTerminal with
    | false => simp
    | true =>
      have hn : s.isRunning = false := by
        simpa [Session.isRunning] using Status.not_running ht
      simp [(ha.resting s hs).quiet hn p]
  rw [hreap]
  refine ⟨ha.ids.sublist (hsub.map Session.id), ?_, ?_, ?_⟩
  · exact fun s hs => ha.resting s (hsub.subset hs)
  · rw [hwaiting]
    exact ha.tallied.counts
  · rw [hwaiting]
    exact ha.tallied.subscribed

end Accounted

end Hub

/-- The commands that change what the plan is subscribed to. -/
def Ground.Command.Subscribes : Ground.Command → Prop
  | .subscribe .. | .unsubscribe .. => True
  | _ => False

theorem Ground.perform_subscriptions {g g' : Ground} {c : Command} {reply : Reply}
    (h : g.perform c = .ok (reply, g')) (hc : ¬ c.Subscribes) :
    g'.plan.subscriptions = g.plan.subscriptions := by
  have granted (request : Plan.Request) (hr : request.grant g.plan = .ok g'.plan) :
      g'.plan.subscriptions = g.plan.subscriptions :=
    (Plan.Request.grant_ok hr).2
  cases c with
  | instantiate d =>
    obtain ⟨_, _, hi⟩ := instantiate_cases h
    exact (Plan.instantiate_quiet hi).2
  | start task => exact granted (.start task) (granted_ok h)
  | stop task => exact granted (.stop task.id) (granted_ok h)
  | attach parent task role => exact granted (.attach parent.id task role) (granted_ok h)
  | detach parent task role => exact granted (.detach parent.id task role) (granted_ok h)
  | setArgument task name value =>
    exact granted (.setArgument task.id name value) (granted_ok h)
  | emit task event payload => exact granted (.emit task.id event payload) (granted_ok h)
  | subscribe | unsubscribe => exact absurd trivial hc
  | happen | raise | record | addRoot | setRootArgument | argument | state | ancestry | poll
  | isSubscribed =>
    cases h
    rfl

/-- The hubs that a new one becomes. Sessions are taken in before their start, each under a name
that no other has then; they may be kept in any order. Between the hub's own doings the plan goes
on, but its subscriptions are left to the hub. -/
inductive Hub.Reached (plan : Plan) : Hub → Prop where
  | new (config : HubConfig) : Reached plan { Hub.new plan with config }
  | add {h : Hub} {root : Handle} {s : Session} : Reached plan h → s.Unstarted root →
    s.core.catalog.Civil → s.id ∉ h.ids → Reached plan (h.add s)
  | arrange {h : Hub} {sessions : List Session} : Reached plan h → sessions.Perm h.sessions →
    Reached plan { h with sessions }
  | start {h : Hub} (id : String) : Reached plan h → Reached plan (h.start id).2
  | stop {h : Hub} (id : String) : Reached plan h → Reached plan (h.stop id).2
  | post {h : Hub} (signal : Signal) : Reached plan h → Reached plan (h.post signal)
  | pump {h : Hub} : Reached plan h → Reached plan h.pump.2
  | reap {h : Hub} : Reached plan h → Reached plan h.reap.2
  | run {h : Hub} : Reached plan h → Reached plan h.runUntilIdle.2
  | drive {h : Hub} {roots : List Handle} {g : Ground} {command : Ground.Command}
      {reply : Ground.Reply} : Reached plan h → ¬ command.Subscribes →
    (⟨h.plan, roots⟩ : Ground).perform command = .ok (reply, g) →
    Reached plan { h with plan := g.plan }

namespace Hub

theorem Reached.accounted {plan : Plan} {h : Hub} (hr : Reached plan h)
    (hp : plan.subscriptions = .empty) : h.Accounted := by
  induction hr with
  | new config => exact .empty hp config
  | add _ hs hcat hnew ih => exact ih.add hs hcat hnew
  | arrange _ hperm ih => exact ih.arrange hperm
  | start id _ ih => exact ih.start id
  | stop id _ ih => exact ih.stop id
  | post signal _ ih => exact ih.of_same rfl rfl rfl
  | pump _ ih => exact ih.pump
  | reap _ ih => exact ih.reap
  | run _ ih => exact ih.run
  | drive _ hc hg ih => exact ih.of_same rfl rfl (Ground.perform_subscriptions hg hc)

/-- Whatever is done with a hub over a plan without subscriptions, the hub counts for each event
the sessions of which the model or the handler waits for it, with no count where there are none, and
the plan is subscribed to the events that some session waits for and to no other. Once every
session has ended, there is nothing left of either. -/
theorem interests_counted {plan : Plan} (hp : plan.subscriptions = .empty) {h : Hub}
    (hr : Reached plan h) :
    (∀ p, h.interest.get? p = if h.waiting p = 0 then none else some (h.waiting p)) ∧
    (∀ p, h.plan.subscriptions.contains p = true ↔ 0 < h.waiting p) ∧
    ((∀ s ∈ h.sessions, s.status.isTerminal = true) →
      h.interest = .empty ∧ h.plan.subscriptions = .empty) := by
  have ha := hr.accounted hp
  have hsubscribed : ∀ p, h.plan.subscriptions.contains p = true ↔ 0 < h.waiting p := by
    intro p
    rw [Nat.pos_iff_ne_zero]
    exact ha.tallied.subscribed p
  refine ⟨ha.tallied.counts, hsubscribed, fun hended => ?_⟩
  have hnone : ∀ p, h.waiting p = 0 := by
    intro p
    refine List.countP_eq_zero.mpr fun s hs => ?_
    have hn : s.isRunning = false := by
      simpa [Session.isRunning] using Status.not_running (hended s hs)
    simp [(ha.resting s hs).quiet hn p]
  constructor
  · refine Dict.eq_empty fun p => ?_
    rw [Dict.contains_eq_isSome, ha.tallied.counts, if_pos (hnone p)]
    rfl
  · refine Dict.eq_empty fun p => ?_
    simpa [hnone p] using hsubscribed p

/-- A session that waits for its root to be told to go on. -/
def biding (id : String) : Session :=
  .new id .sample (.script ⟨"patrol", [], [.wait "pause" (.leaf (.emitted .root ⟨"go"⟩))]⟩)

/-- Two sessions of the same root that wait for the same event. -/
def pair : Hub :=
  ((((Hub.new .sample).add (biding "left")).add (biding "right")).start "left").2.start "right" |>.2

theorem pair_reached : Reached .sample pair := by
  have hunstarted : ∀ id, (biding id).Unstarted .sample := fun _ => .new ..
  have hcivil : ∀ id, (biding id).core.catalog.Civil := fun _ _ _ hb => nomatch hb
  have hleft : Reached .sample ((Hub.new .sample).add (biding "left")) :=
    .add (.new {}) (hunstarted "left") (hcivil "left") (by decide)
  exact .start "right" (.start "left"
    (.add hleft (hunstarted "right") (hcivil "right") (by decide)))

/-- An event for which both wait counts twice. -/
theorem interests_counted_twice :
    pair.waiting (Handle.sample.id, ⟨"go"⟩) = 2 ∧
    pair.interest.get? (Handle.sample.id, ⟨"go"⟩) = some 2 ∧
    pair.plan.subscriptions.contains (Handle.sample.id, ⟨"go"⟩) = true := by
  have hfresh : Plan.sample.subscriptions = .empty := rfl
  obtain ⟨hcounts, hsubscribed, _⟩ := interests_counted hfresh pair_reached
  have htwo : pair.waiting (Handle.sample.id, ⟨"go"⟩) = 2 := by decide
  refine ⟨htwo, ?_, ?_⟩
  · rw [hcounts, htwo]
    rfl
  · rw [hsubscribed, htwo]
    decide

end Hub

end Conductor
