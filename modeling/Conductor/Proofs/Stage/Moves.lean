import Conductor.Proofs.Scopes
import Conductor.Stage
import Mathlib.Logic.Relation

/-!
Moves: what an engine may do to its stage. Whatever an engine does is a chain of moves of its own
lane, so a property that every move preserves is preserved by the whole run of the engine. Most of
what an engine does is calm: it records no output of a step, and emits nothing unless it is loud.
-/

namespace Conductor

/-- The records that an engine makes itself; those of tasks come with filling and emptying. -/
def Trail.Record.ofEngine : Trail.Record → Bool
  | advanced .. | skipped .. | transition .. | finished .. | failed .. => true
  | _ => false

namespace Stage

inductive Move (lane : Lane) (s : Stage) : Stage → Prop where
  | resolve (key : SlotKey) (source : Source) :
    key.lane = lane → Move lane s (s.resolve key source).2
  | retire (key : SlotKey) : key.lane = lane → Move lane s (s.retire key)
  | retireLane : Move lane s (s.retireLane lane)
  | read {name : String} {value : Value} {s' : Stage} :
    s.read name = .ok (value, s') → Move lane s s'
  | write {name : String} {value : Value} {scopes : Scopes} :
    s.scopes.set name value = .ok scopes → Move lane s { s with scopes }
  | output (depth : Nat) (label : String) (value : Value) :
    Move lane s { s with scopes := s.scopes.recordOutput depth label value }
  | reset (depth : Nat) : Move lane s { s with scopes := s.scopes.reset depth }
  | emit (event : EventName) (payload : Option Value) :
    Move lane s (s.emitOnRoot event payload).2
  | await (wanted : KeySet Interest) :
    Move lane s { s with interests := s.interests.replace lane wanted }
  | record (r : Trail.Record) : r.ofEngine = true → Move lane s (s.recordTrail r)

/-- The moves that record no output of a step and drop none. An event is emitted by loud ones only. -/
inductive Calm (lane : Lane) (loud : Bool) (s : Stage) : Stage → Prop where
  | resolve (key : SlotKey) (source : Source) :
    key.lane = lane → Calm lane loud s (s.resolve key source).2
  | retire (key : SlotKey) : key.lane = lane → Calm lane loud s (s.retire key)
  | retireLane : Calm lane loud s (s.retireLane lane)
  | read {name : String} {value : Value} {s' : Stage} :
    s.read name = .ok (value, s') → Calm lane loud s s'
  | write {name : String} {value : Value} {scopes : Scopes} :
    s.scopes.set name value = .ok scopes → Calm lane loud s { s with scopes }
  | emit (event : EventName) (payload : Option Value) :
    loud = true → Calm lane loud s (s.emitOnRoot event payload).2
  | await (wanted : KeySet Interest) :
    Calm lane loud s { s with interests := s.interests.replace lane wanted }
  | record (r : Trail.Record) : r.ofEngine = true → Calm lane loud s (s.recordTrail r)

abbrev Moves (lane : Lane) : Stage → Stage → Prop := Relation.ReflTransGen (Move lane)

abbrev Calms (lane : Lane) (loud : Bool) : Stage → Stage → Prop :=
  Relation.ReflTransGen (Calm lane loud)

theorem Moves.preserves {lane : Lane} {P : Stage → Prop}
    (hstep : ∀ s s', Move lane s s' → P s → P s') {s s' : Stage} (h : Moves lane s s')
    (hs : P s) : P s' := by
  induction h with
  | refl => exact hs
  | tail _ hm ih => exact hstep _ _ hm ih

variable {lane : Lane} {loud : Bool} {s s' : Stage}

theorem Calm.move (h : s.Calm lane loud s') : s.Move lane s' := by
  cases h with
  | resolve key source hkey => exact .resolve key source hkey
  | retire key hkey => exact .retire key hkey
  | retireLane => exact .retireLane
  | read hr => exact .read hr
  | write hw => exact .write hw
  | emit event payload _ => exact .emit event payload
  | await wanted => exact .await wanted
  | record r hr => exact .record r hr

theorem Calms.moves (h : s.Calms lane loud s') : s.Moves lane s' := by
  induction h with
  | refl => exact .refl
  | tail _ hm ih => exact ih.tail hm.move

theorem Calms.preserves {P : Stage → Prop}
    (hstep : ∀ s s', Calm lane loud s s' → P s → P s') (h : s.Calms lane loud s') (hs : P s) :
    P s' := by
  induction h with
  | refl => exact hs
  | tail _ hm ih => exact hstep _ _ hm ih

/-- Calm moves, and at most one output of a step in between, recorded at the given depth and only
if it may be noted. -/
inductive Reports (lane : Lane) (depth : Nat) (noted : Bool) (s s' : Stage) : Prop where
  | calm : s.Calms lane true s' → Reports lane depth noted s s'
  | output {t : Stage} (label : String) (value : Value) : noted = true → s.Calms lane true t →
    Calms lane true { t with scopes := t.scopes.recordOutput depth label value } s' →
    Reports lane depth noted s s'

namespace Reports

variable {depth : Nat} {noted : Bool} {s'' : Stage}

theorem calms (h : s.Reports lane depth false s') : s.Calms lane true s' := by
  cases h with
  | calm h => exact h
  | output _ _ hn => cases hn

theorem moves (h : s.Reports lane depth noted s') : s.Moves lane s' := by
  cases h with
  | calm h => exact h.moves
  | output label value _ hbefore hafter =>
    exact (hbefore.moves.tail (.output depth label value)).trans hafter.moves

theorem before (h : s.Calms lane true s') (h' : s'.Reports lane depth noted s'') :
    s.Reports lane depth noted s'' := by
  cases h' with
  | calm h' => exact .calm (h.trans h')
  | output label value hn hbefore hafter => exact .output label value hn (h.trans hbefore) hafter

theorem after (h : s.Reports lane depth noted s') (h' : s'.Calms lane true s'') :
    s.Reports lane depth noted s'' := by
  cases h with
  | calm h => exact .calm (h.trans h')
  | output label value hn hbefore hafter => exact .output label value hn hbefore (hafter.trans h')

end Reports

/-! ## Guards -/

/-! ## What a move comes to -/

/-- The trail once the resolution of a slot has ended: a task for a slot that was not filled is put on
record. -/
def trailOf (s : Stage) (key : SlotKey) : Except Error Handle → Trail
  | .error _ => s.trail
  | .ok handle =>
    if s.slots.isLive key then s.trail
    else s.trail.record (.resolved handle (key.role s.slots.rolePrefix))

/-- A slot is resolved as the slots resolve it, and if the task that it holds then is pending, the
plan starts it. -/
theorem resolve_cases (s : Stage) (key : SlotKey) (source : Source) :
    ∃ result slots scopes plan started,
      s.slots.resolve s.catalog key source s.scopes s.plan = (result, slots, scopes, plan) ∧
      (∀ task, (s.resolve key source).1 = .ok task → result = .ok task) ∧
      (started = plan ∨ ∃ task, result = .ok task ∧ plan.start task = .ok started) ∧
      (s.resolve key source).2 =
        { s with slots, scopes, plan := started, trail := s.trailOf key result } := by
  unfold resolve
  split
  · rename_i e slots scopes plan hr
    exact ⟨.error e, slots, scopes, plan, plan, hr, nofun, .inl rfl, rfl⟩
  · rename_i handle slots scopes plan hr
    extract_lets trail t
    split
    · split
      · rename_i started hs
        exact ⟨.ok handle, slots, scopes, plan, started, hr, fun _ => id, .inr ⟨handle, rfl, hs⟩, rfl⟩
      · exact ⟨.ok handle, slots, scopes, plan, plan, hr, nofun, .inl rfl, rfl⟩
    · exact ⟨.ok handle, slots, scopes, plan, plan, hr, fun _ => id, .inl rfl, rfl⟩

/-- A slot is emptied as the slots empty it. -/
theorem retire_cases (s : Stage) (key : SlotKey) :
    ∃ trail, s.retire key = { s with
      slots := (s.slots.retire key s.plan).2.1
      plan := (s.slots.retire key s.plan).2.2
      trail } := by
  unfold retire
  split
  · rename_i h
    rw [h]
    exact ⟨_, rfl⟩
  · rename_i h
    unfold Slots.retire at h ⊢
    split at h
    · exact ⟨s.trail, rfl⟩
    · cases h

/-- Reading a variable changes the scopes alone. -/
theorem read_ok {name : String} {value : Value} (h : s.read name = .ok (value, s')) :
    ∃ scopes, s.scopes.get (s.plan.argument? s.root) name = .ok (value, scopes) ∧
      s' = { s with scopes } := by
  obtain ⟨_, hg, he⟩ := Except.map_eq_ok h
  cases he
  exact ⟨_, hg, rfl⟩

theorem readAll_calms (names : List String) {values values' : Dict String Value}
    (h : readAll names values s = (values', s')) : Calms lane loud s s' := by
  induction names generalizing s values with
  | nil =>
    cases h
    exact .refl
  | cons name rest ih =>
    simp only [readAll] at h
    split at h
    · rename_i hr
      exact .head (.read hr) (ih h)
    · exact ih h

theorem view_calms (s : Stage) (guard : Guard) (focus : Focus) :
    Calms lane loud s (s.view guard focus).2 :=
  readAll_calms guard.vars rfl

theorem evaluate_calms (s : Stage) (guard : Guard) (focus : Focus) (memo : Memo) :
    Calms lane loud s (s.evaluate guard focus memo).2.2 :=
  view_calms s guard focus

theorem interestsOf_calms (focus : Focus) (guards : List Guard) {wanted wanted' : KeySet Interest}
    (h : interestsOf focus guards wanted s = (wanted', s')) : Calms lane loud s s' := by
  induction guards generalizing s wanted with
  | nil =>
    cases h
    exact .refl
  | cons guard rest ih =>
    simp only [interestsOf] at h
    exact (view_calms s guard focus).trans (ih h)

theorem subscribe_calms (guards : List Guard) (focus : Focus) (own : Option TaskId) :
    Calms lane loud s (s.subscribe lane guards focus own) := by
  have hview : Calms lane loud s (interestsOf focus guards .empty s).2 := interestsOf_calms _ _ rfl
  exact hview.tail (.await _)

/-! ## Effects -/

theorem origin_calms {o : Assignment.Origin} {focus : Focus} {task : Option Handle}
    {value : Value} (h : s.origin o focus task = .ok (value, s')) : Calms lane loud s s' := by
  unfold origin at h
  split at h
  · cases h
    exact .refl
  · cases h
    exact .refl
  · cases h
    exact .refl
  · obtain ⟨_, hr, he⟩ := Except.map_eq_ok h
    cases he
    exact .single (.read hr)
  · cases h
    exact .refl
  · exact .single (.read h)

theorem assign_calms {a : Assignment} {focus : Focus} {task : Option Handle}
    {result : Except Error Unit} (h : s.assign a focus task = (result, s')) :
    Calms lane loud s s' := by
  unfold assign at h
  split at h
  · cases h
    exact .refl
  · rename_i ho
    split at h
    · cases h
      exact origin_calms ho
    · rename_i hw
      cases h
      exact (origin_calms ho).tail (.write hw)

theorem emitOnRoot_calms {event : EventName} {payload : Option Value}
    {result : Except Error Unit} (h : s.emitOnRoot event payload = (result, s')) :
    Calms lane true s s' := by
  have hs : s' = (s.emitOnRoot event payload).2 := by rw [h]
  rw [hs]
  exact .single (.emit event payload rfl)

end Stage

end Conductor
