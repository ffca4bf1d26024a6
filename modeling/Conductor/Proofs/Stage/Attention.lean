import Conductor.Proofs.Guard.Verdict
import Conductor.Proofs.Log
import Conductor.Proofs.Stage.Moves

/-!
What a lane waits for. When a step subscribes, the events that its guards name are registered for
every task that is known at that time. Reading variables on the way changes no value, so what a
reference stands for does not depend on when in the course of it the reference is resolved.

An event decides a leaf by its name, if the leaf waits for it, or by ending the task of the leaf. Only
the first is registered for a task that is not the step's own.
-/

namespace Conductor

theorem Guard.mem_vars {g : Guard} {l : Leaf} {name : String} (hl : l ∈ g.allLeaves)
    (hn : l.varName? = some name) : name ∈ g.vars := by
  unfold vars leaves
  rw [List.mem_eraseDups, List.mem_filterMap]
  exact ⟨l, List.mem_eraseDups.mpr hl, hn⟩

theorem Interests.wants_of_lane {i : Interests} {lane : Lane} {task : TaskId}
    {name event : EventName} (h : (i.lane lane).contains (task, event) = true)
    (hn : name.implies event = true) : i.wants task name = true := by
  have hmem : (task, event) ∈ i.model.keys ++ i.handler.keys := by
    cases lane with
    | model => exact List.mem_append_left _ (Dict.mem_keys.mpr h)
    | handler => exact List.mem_append_right _ (Dict.mem_keys.mpr h)
  exact List.any_eq_true.mpr ⟨(task, event), hmem, by simp [hn]⟩

theorem Interests.lane_replace (i : Interests) (lane : Lane) (wanted : KeySet Interest) :
    (i.replace lane wanted).lane lane = wanted := by
  cases lane <;> rfl

/-- The view once an event is on record. -/
def View.hear (v : View) (e : Event) : View := { v with log := v.log.record e }

namespace Leaf

/-- An event rules a leaf out: it ends the task of the leaf, which waits for another event. -/
structure RuledOut (v : View) (e : Event) (ref : TaskRef) (event : EventName) : Prop where
  ends : e.name.isTerminal = true
  other : e.name.implies event = false
  before : (Leaf.emitted ref event).decide v = .pending
  after : (Leaf.emitted ref event).decide (v.hear e) = .no

theorem decide_emitted {v : View} {ref : TaskRef} {task : TaskId} (h : v.task? ref = some task)
    (event : EventName) : (Leaf.emitted ref event).decide v =
      if v.log.occurred task event v.since then .yes
      else if v.log.finished task v.since then .no
      else .pending := by
  simp only [decide, h]

theorem task?_hear (v : View) (e : Event) (ref : TaskRef) : (v.hear e).task? ref = v.task? ref := by
  cases ref <;> rfl

/-- The end of its task rules a leaf out that waits for another event, unless it is decided. -/
theorem decide_end {v : View} {e : Event} {ref : TaskRef} {event : EventName}
    (htask : v.task? ref = some e.task) (hends : e.name.isTerminal = true)
    (hother : e.name.implies event = false) :
    (emitted ref event).decide (v.hear e) = (emitted ref event).decide v ∨
      RuledOut v e ref event := by
  have hbefore := decide_emitted htask event
  have hafter := decide_emitted ((task?_hear v e ref).trans htask) event
  have hoccurred : (v.log.record e).occurred e.task event v.since =
      v.log.occurred e.task event v.since := Log.occurred_record v.log (by simp [hother]) v.since
  rw [View.hear, hoccurred] at hafter
  cases hseen : v.log.occurred e.task event v.since with
  | true =>
    left
    rw [View.hear, hafter, hbefore, hseen]
    rfl
  | false =>
    rw [hseen] at hbefore hafter
    cases hended : v.log.finished e.task v.since with
    | true =>
      left
      rw [View.hear, hafter, hbefore, Log.finished_of_record hended, hended]
    | false =>
      rw [hended] at hbefore
      cases hended' : (v.log.record e).finished e.task v.since with
      | true =>
        rw [hended'] at hafter
        exact .inr ⟨hends, hother, hbefore, hafter⟩
      | false =>
        left
        rw [View.hear, hafter, hbefore, hended']

/-- An event makes a difference only to leaves on its task, and to those only by counting as what
they wait for or by ruling them out. -/
theorem decide_hear (v : View) (e : Event) (l : Leaf) :
    l.decide (v.hear e) = l.decide v ∨ ∃ ref event, l = .emitted ref event ∧
      v.task? ref = some e.task ∧ (e.name.implies event = true ∨ RuledOut v e ref event) := by
  cases l with
  | equals name value => exact .inl rfl
  | emitted ref event =>
    cases hv : v.task? ref with
    | none =>
      left
      simp only [decide, task?_hear, hv]
    | some task =>
      by_cases hmet : e.task = task ∧ e.name.implies event = true
      · exact .inr ⟨ref, event, rfl, by rw [hv, hmet.1], .inl hmet.2⟩
      by_cases hend : e.task = task ∧ e.name.isTerminal = true
      · obtain ⟨rfl, hterminal⟩ := hend
        refine (decide_end hv hterminal (by simpa using hmet)).imp_right fun h => ?_
        exact ⟨ref, event, rfl, hv, .inr h⟩
      · left
        rw [decide_emitted ((task?_hear v e ref).trans hv) event, decide_emitted hv event, View.hear,
          Log.occurred_record v.log hmet, Log.finished_record v.log hend]

end Leaf

namespace Stage

variable {s s' s'' : Stage} {focus : Focus}

/-- The value that a name has on a stage. -/
def look (s : Stage) (name : String) : Option Value :=
  s.scopes.look (s.plan.argument? s.root) name

/-- From one stage to the other variables were read. -/
structure Reads (s s' : Stage) : Prop where
  plan : s'.plan = s.plan
  slots : s'.slots = s.slots
  look : ∀ name, s'.look name = s.look name

namespace Reads

theorem refl (s : Stage) : s.Reads s := ⟨rfl, rfl, fun _ => rfl⟩

theorem trans (h : s.Reads s') (h' : s'.Reads s'') : s.Reads s'' :=
  ⟨h'.plan.trans h.plan, h'.slots.trans h.slots, fun name => (h'.look name).trans (h.look name)⟩

theorem read {name : String} {value : Value} (h : s.read name = .ok (value, s')) :
    s.Reads s' := by
  obtain ⟨scopes, hg, rfl⟩ := read_ok h
  exact ⟨rfl, rfl, fun other => Scopes.look_get hg other⟩

end Reads

theorem look_read {name : String} {value : Value} (h : s.read name = .ok (value, s')) :
    s.look name = some value := by
  obtain ⟨scopes, hg, rfl⟩ := read_ok h
  rw [look, Scopes.look, hg]
  rfl

theorem look_error {name : String} {error : Error} (h : s.read name = .error error) :
    s.look name = none := by
  unfold read at h
  unfold look Scopes.look
  cases hg : s.scopes.get (s.plan.argument? s.root) name with
  | error e => rfl
  | ok result =>
    rw [hg] at h
    cases h

/-- Reading variables in turn finds the value of each. -/
theorem readAll_ok (names : List String) {values values' : Dict String Value}
    (h : readAll names values s = (values', s')) :
    s.Reads s' ∧ ∀ name, values'.get? name =
      if name ∈ names then (s.look name).or (values.get? name) else values.get? name := by
  induction names generalizing s values with
  | nil =>
    cases h
    exact ⟨.refl _, by simp⟩
  | cons first rest ih =>
    simp only [readAll] at h
    split at h
    · rename_i value t hr
      obtain ⟨hreads, hvalues⟩ := ih h
      refine ⟨(Reads.read hr).trans hreads, fun name => ?_⟩
      rw [hvalues name, (Reads.read hr).look, Dict.get?_insert]
      by_cases hn : name = first
      · simp [hn, look_read hr]
      · simp [hn]
    · rename_i hr
      obtain ⟨hreads, hvalues⟩ := ih h
      refine ⟨hreads, fun name => ?_⟩
      rw [hvalues name]
      by_cases hn : name = first
      · simp [hn, look_error hr]
      · simp [hn]

/-- The task that a reference stands for on a stage. -/
def refers? (s : Stage) (focus : Focus) : TaskRef → Option TaskId
  | .current => focus.task
  | .root => some s.root
  | .held name => ((s.look name).bind Value.task?).map Handle.id

theorem Reads.refers? (h : s.Reads s') (focus : Focus) (ref : TaskRef) :
    s'.refers? focus ref = s.refers? focus ref := by
  cases ref with
  | current => rfl
  | root => simp only [Stage.refers?, root, h.slots]
  | held name => simp only [Stage.refers?, h.look]

theorem view_reads (s : Stage) (g : Guard) (focus : Focus) : s.Reads (s.view g focus).2 :=
  (readAll_ok g.vars rfl).1

/-- A guard is decided against the values that its variables have. -/
theorem view_vars (s : Stage) {g : Guard} (focus : Focus) {name : String} (h : name ∈ g.vars) :
    (s.view g focus).1.vars.get? name = s.look name := by
  have hvalues := (readAll_ok g.vars (Eq.refl (readAll g.vars .empty s))).2 name
  rw [if_pos h, Dict.get?_empty, Option.or_none] at hvalues
  exact hvalues

theorem view_task? (s : Stage) {g : Guard} (focus : Focus) {ref : TaskRef} {event : EventName}
    (h : .emitted ref event ∈ g.allLeaves) :
    (s.view g focus).1.task? ref = s.refers? focus ref := by
  cases ref with
  | current => rfl
  | root =>
    have hslots := (readAll_ok g.vars (Eq.refl (readAll g.vars .empty s))).1.slots
    simp only [View.task?, refers?, view, root, hslots]
  | held name => simp only [View.task?, refers?, view_vars s focus (g.mem_vars h rfl)]

/-- What guards depend on is wanted for every task that they name. -/
theorem interestsOf_ok (guards : List Guard) {wanted wanted' : KeySet Interest}
    (h : interestsOf focus guards wanted s = (wanted', s')) :
    s.Reads s' ∧ (∀ p, wanted.contains p = true → wanted'.contains p = true) ∧
      ∀ g ∈ guards, ∀ ref event, .emitted ref event ∈ g.allLeaves → ∀ task,
        s.refers? focus ref = some task → wanted'.contains (task, event) = true := by
  induction guards generalizing s wanted with
  | nil =>
    cases h
    exact ⟨.refl _, fun _ => id, by simp⟩
  | cons g rest ih =>
    simp only [interestsOf] at h
    obtain ⟨hreads, hmono, hrest⟩ := ih h
    have hview := view_reads s g focus
    refine ⟨hview.trans hreads, fun p hp => hmono p ?_, fun g' hg ref event hl task ht => ?_⟩
    · exact (KeySet.contains_addAll ..).mpr (.inr hp)
    · rcases List.mem_cons.mp hg with rfl | hg
      · refine hmono _ ((KeySet.contains_addAll ..).mpr (.inl ?_))
        rw [Guard.interests, List.mem_filterMap]
        refine ⟨.emitted ref event, List.mem_eraseDups.mpr hl, ?_⟩
        simp only [view_task? s focus hl, ht, Option.map_some]
      · exact hrest g' hg ref event hl task (by rw [hview.refers?, ht])

/-- The task that a reference stands for whatever the arguments of the root are. -/
def means? (s : Stage) (focus : Focus) : TaskRef → Option TaskId
  | .current => focus.task
  | .root => some s.root
  | .held name => ((s.scopes.settled? name).bind Value.task?).map Handle.id

theorem refers_of_means {ref : TaskRef} {task : TaskId} (h : s.means? focus ref = some task) :
    s.refers? focus ref = some task := by
  cases ref with
  | current => exact h
  | root => exact h
  | held name =>
    simp only [means?] at h
    cases hsettled : s.scopes.settled? name with
    | none =>
      rw [hsettled] at h
      cases h
    | some value =>
      have hlook : s.look name = some value := Scopes.look_of_settled _ hsettled
      rw [hsettled] at h
      simp only [refers?, hlook]
      exact h

/-- A reference has a task, if at all, only by an argument of the root that nobody has read yet. -/
def Open (s : Stage) (ref : TaskRef) : Prop :=
  ∃ name, ref = .held name ∧ s.scopes.settled? name = none

theorem means_or_open {ref : TaskRef} {task : TaskId} (h : s.refers? focus ref = some task) :
    s.means? focus ref = some task ∨ s.Open ref := by
  cases ref with
  | current => exact .inl h
  | root => exact .inl h
  | held name =>
    cases hsettled : s.scopes.settled? name with
    | none => exact .inr ⟨name, rfl, hsettled⟩
    | some value =>
      have hlook : s.look name = some value := Scopes.look_of_settled _ hsettled
      left
      simp only [refers?, hlook] at h
      simp only [means?, hsettled]
      exact h

/-- A lane waits for the events that a guard names and for the end of the step's own task. -/
structure Awaits (s : Stage) (lane : Lane) (g : Guard) (focus : Focus) (own : Option TaskId) :
    Prop where
  leaves : ∀ ref event, .emitted ref event ∈ g.allLeaves → ∀ task,
    s.means? focus ref = some task → (s.interests.lane lane).contains (task, event) = true
  ends : ∀ task, own = some task → ∀ name ∈ EventName.terminals,
    (s.interests.lane lane).contains (task, name) = true

theorem Awaits.congr {lane : Lane} {g : Guard} {own : Option TaskId} (h : s.Awaits lane g focus own)
    (hs : s'.scopes = s.scopes) (hr : s'.root = s.root) (hi : s'.interests = s.interests) :
    s'.Awaits lane g focus own := by
  have hmeans : s'.means? focus = s.means? focus := by
    funext ref
    cases ref with
    | current => rfl
    | root => simp only [means?, hr]
    | held name => simp only [means?, hs]
  refine ⟨fun ref event hl task ht => ?_, fun task ht name hn => ?_⟩
  · rw [hi]
    exact h.leaves ref event hl task (hmeans ▸ ht)
  · rw [hi]
    exact h.ends task ht name hn

theorem subscribe_awaits (s : Stage) (lane : Lane) {guards : List Guard} (focus : Focus)
    (own : Option TaskId) {g : Guard} (hg : g ∈ guards) :
    (s.subscribe lane guards focus own).Awaits lane g focus own := by
  obtain ⟨hreads, _, hwanted⟩ := interestsOf_ok guards
    (Eq.refl (interestsOf focus guards .empty s))
  refine ⟨fun ref event hl task ht => ?_, fun task ht name hn => ?_⟩
  · have href : s.refers? focus ref = some task := by
      rw [← hreads.refers?]
      exact refers_of_means ht
    simp only [subscribe, Interests.lane_replace]
    exact (KeySet.contains_addAll ..).mpr (.inr (hwanted g hg ref event hl task href))
  · simp only [subscribe, Interests.lane_replace, ht]
    exact (KeySet.contains_addAll ..).mpr (.inl (List.mem_map.mpr ⟨name, hn, rfl⟩))

end Stage

end Conductor
