import Conductor.Proofs.Fault.Selection

/-!
The phases of entries. An entry leaves its rest one move at a time while all others stay at theirs,
and comes back to it in the end. A move that the life of a response allows is never refused, and no
other entry takes part in it.
-/

namespace Conductor

/-- A table as its responses were registered: no entry was moved on yet. -/
def ResponseTable.Untouched (t : ResponseTable) : Prop := ∀ e ∈ t.entries, e.phase = .idle

theorem ResponseTable.ofResponses_untouched (name : String) (responses : List Response) :
    (ofResponses name responses).Untouched := by
  intro e he
  obtain ⟨r, _, rfl⟩ := List.mem_map.mp he
  rfl

namespace Dispatch

variable {d d' : Dispatch} {table entry : Nat} {phase next : Phase}

/-- Moving an entry on in its life changes nothing but its table, or the count of refusals. -/
theorem advance_eq (d : Dispatch) (table entry : Nat) (next : Phase) :
    ∃ tables refused, d.advance table entry next = { d with tables, refused } := by
  unfold advance advance?
  cases d.tables[table]?.bind fun t => t.advance? entry next with
  | none => exact ⟨d.tables, d.refused + 1, rfl⟩
  | some t => exact ⟨d.tables.set table t, d.refused, rfl⟩

@[simp] theorem advance_active (d : Dispatch) (table entry : Nat) (next : Phase) :
    (d.advance table entry next).active = d.active := by
  obtain ⟨tables, refused, h⟩ := d.advance_eq table entry next
  rw [h]

@[simp] theorem advance_pending (d : Dispatch) (table entry : Nat) (next : Phase) :
    (d.advance table entry next).pending = d.pending := by
  obtain ⟨tables, refused, h⟩ := d.advance_eq table entry next
  rw [h]

@[simp] theorem advance_limit (d : Dispatch) (table entry : Nat) (next : Phase) :
    (d.advance table entry next).limit = d.limit := by
  obtain ⟨tables, refused, h⟩ := d.advance_eq table entry next
  rw [h]

theorem phase?_eq_some_iff : d.phase? table entry = some phase ↔
    ∃ t e, d.tables[table]? = some t ∧ t.entries[entry]? = some e ∧ e.phase = phase := by
  simp [phase?, ResponseTable.phase?, Option.bind_eq_some_iff]

/-- An entry with a response is in some phase. -/
theorem exists_phase {r : Response} (h : d.response? table entry = some r) :
    ∃ phase, d.phase? table entry = some phase := by
  obtain ⟨t, ht, hr⟩ := Option.bind_eq_some_iff.mp h
  obtain ⟨e, he, _⟩ := Option.map_eq_some_iff.mp hr
  exact ⟨e.phase, phase?_eq_some_iff.mpr ⟨t, e, ht, he, rfl⟩⟩

/-- A move that is allowed changes the phase of its entry and of no other one. -/
theorem advance_phase? (h : d.phase? table entry = some phase) (hn : phase.mayBecome next = true) :
    (d.advance table entry next).refused = d.refused ∧
      ∀ t e, (d.advance table entry next).phase? t e =
        if t = table ∧ e = entry then some next else d.phase? t e := by
  obtain ⟨held, at_, ht, he, rfl⟩ := phase?_eq_some_iff.mp h
  obtain ⟨htable, hheld⟩ := List.getElem?_eq_some_iff.mp ht
  obtain ⟨hentry, _⟩ := List.getElem?_eq_some_iff.mp he
  have hmoved : d.advance table entry next = { d with
      tables := d.tables.set table
        ({ held with entries := held.entries.set entry ({ at_ with phase := next }) }) } := by
    simp [advance, advance?, ht, ResponseTable.advance?, he, hn]
  refine ⟨by rw [hmoved], fun t e => ?_⟩
  rw [hmoved]
  by_cases hsame : t = table
  · subst hsame
    by_cases hother : e = entry
    · subst hother
      simp [phase?, ResponseTable.phase?, htable, hentry]
    · simp [phase?, ResponseTable.phase?, htable, hheld, hother,
        List.getElem?_set_ne (Ne.symm hother)]
  · simp [phase?, List.getElem?_set_ne (Ne.symm hsame), hsame]

/-- Every entry is at rest, and no move was refused. -/
structure Resting (d : Dispatch) : Prop where
  idle : ∀ table entry phase, d.phase? table entry = some phase → phase = .idle
  refused : d.refused = 0

/-- One entry is in the given phase, every other one is at rest, and no move was refused. -/
structure Alone (d : Dispatch) (table entry : Nat) (phase : Phase) : Prop where
  here : d.phase? table entry = some phase
  others : ∀ t e other, ¬ (t = table ∧ e = entry) → d.phase? t e = some other → other = .idle
  refused : d.refused = 0

theorem Resting.of_untouched (h : ∀ t ∈ d.tables, t.Untouched) (hr : d.refused = 0) :
    d.Resting := by
  refine ⟨fun table entry phase hp => ?_, hr⟩
  obtain ⟨t, e, ht, he, rfl⟩ := phase?_eq_some_iff.mp hp
  exact h t (List.mem_of_getElem? ht) e (List.mem_of_getElem? he)

theorem Resting.alone (h : d.Resting) {r : Response} (hr : d.response? table entry = some r) :
    d.Alone table entry .idle := by
  obtain ⟨phase, hp⟩ := exists_phase hr
  refine ⟨?_, fun t e other _ ho => h.idle t e other ho, h.refused⟩
  rw [hp, h.idle _ _ _ hp]

theorem Alone.resting (h : d.Alone table entry .idle) : d.Resting := by
  refine ⟨fun t e phase hp => ?_, h.refused⟩
  by_cases hsame : t = table ∧ e = entry
  · rw [hsame.1, hsame.2, h.here] at hp
    exact (Option.some.inj hp).symm
  · exact h.others t e phase hsame hp

theorem Alone.advance (h : d.Alone table entry phase) (hn : phase.mayBecome next = true) :
    (d.advance table entry next).Alone table entry next := by
  obtain ⟨hrefused, hphase⟩ := advance_phase? h.here hn
  refine ⟨?_, fun t e other hother ho => ?_, hrefused.trans h.refused⟩
  · rw [hphase, if_pos ⟨rfl, rfl⟩]
  · rw [hphase, if_neg hother] at ho
    exact h.others t e other hother ho

/-- The entry of the active handler is being handled, with the urgency of its response, and every
other one is at rest. -/
structure Settled (d : Dispatch) : Prop where
  resting : d.active = none → d.Resting
  handling : ∀ active, d.active = some active → d.Alone active.table active.entry .handling
  priority : ∀ active, d.active = some active →
    (d.response? active.table active.entry).map Response.priority = some active.priority

namespace Settled

/-- Neither what the active handler does nor which faults wait is of any consequence. -/
theorem of_same (h : d.Settled) (ht : d'.tables = d.tables) (hr : d'.refused = d.refused)
    (ha : d'.active.map (fun a => (a.table, a.entry, a.priority)) =
      d.active.map fun a => (a.table, a.entry, a.priority)) : d'.Settled := by
  have hphase : d'.phase? = d.phase? := by
    funext table entry
    rw [phase?, ht]
    rfl
  have hresponse : d'.response? = d.response? := by
    funext table entry
    rw [response?, ht]
    rfl
  have hactive : ∀ active, d'.active = some active → ∃ before, d.active = some before ∧
      before.table = active.table ∧ before.entry = active.entry ∧
        before.priority = active.priority := by
    intro active hd
    rw [hd] at ha
    obtain ⟨before, hb, he⟩ := Option.map_eq_some_iff.mp ha.symm
    exact ⟨before, hb, by simpa using he⟩
  refine ⟨fun hnone => ?_, fun active hd => ?_, fun active hd => ?_⟩
  · rw [hnone] at ha
    have hrest := h.resting (Option.map_eq_none_iff.mp ha.symm)
    exact ⟨hphase ▸ hrest.idle, hr.trans hrest.refused⟩
  · obtain ⟨before, hb, htable, hentry, _⟩ := hactive active hd
    have halone := h.handling before hb
    rw [htable, hentry] at halone
    exact ⟨hphase ▸ halone.here, hphase ▸ halone.others, hr.trans halone.refused⟩
  · obtain ⟨before, hb, htable, hentry, hpriority⟩ := hactive active hd
    rw [hresponse, ← htable, ← hentry, ← hpriority]
    exact h.priority before hb

/-- While no handler is active, every entry has come to rest. -/
theorem of_resting (h : d.Resting) (ha : d.active = none) : d.Settled :=
  ⟨fun _ => h, fun _ hd => (nomatch ha.symm.trans hd), fun _ hd => (nomatch ha.symm.trans hd)⟩

/-- The entry of the active handler stays as it is while the handler is taken out. -/
theorem vacated (h : d.Settled) {active : ActiveHandler} (ha : d.active = some active) :
    ({ d with active := none } : Dispatch).Alone active.table active.entry .handling := by
  obtain ⟨hhere, hothers, hrefused⟩ := h.handling active ha
  exact ⟨hhere, hothers, hrefused⟩

/-- The active handler gives way, and its entry comes to rest. -/
theorem abandoned (h : d.Settled) {active : ActiveHandler} (ha : d.active = some active) :
    (({ d with active := none } : Dispatch).advance active.table active.entry .idle).Settled :=
  of_resting ((h.vacated ha).advance rfl).resting (advance_active ..)

/-- The active handler comes to an end, and so does the life of its response. -/
theorem ended (h : d.Settled) {active : ActiveHandler} (ha : d.active = some active)
    (hp : phase = .resolved ∨ phase = .escalated) :
    ((({ d with active := none } : Dispatch).advance active.table active.entry phase).advance
      active.table active.entry .idle).Settled := by
  have hlast : ((({ d with active := none } : Dispatch).advance active.table active.entry
      phase).advance active.table active.entry .idle).Resting := by
    rcases hp with rfl | rfl
    · exact (((h.vacated ha).advance rfl).advance rfl).resting
    · exact (((h.vacated ha).advance rfl).advance rfl).resting
  refine of_resting hlast ?_
  rw [advance_active, advance_active]

/-- The handler of a response takes over. -/
theorem taken (h : d.Settled) (hnone : d.active = none) {active : ActiveHandler} {r : Response}
    (hr : d.response? active.table active.entry = some r) (hp : active.priority = r.priority) :
    ({ (d.advance active.table active.entry .triggered).advance active.table active.entry
        .handling with active := some active } : Dispatch).Settled := by
  have htriggered : (d.advance active.table active.entry .triggered).Alone active.table
      active.entry .triggered := ((h.resting hnone).alone hr).advance rfl
  have hhandling : ((d.advance active.table active.entry .triggered).advance active.table
      active.entry .handling).Alone active.table active.entry .handling := htriggered.advance rfl
  obtain ⟨hhere, hothers, hrefused⟩ := hhandling
  have hsame := response?_congr ((advance_responses (d.advance active.table active.entry .triggered)
    active.table active.entry .handling).trans (advance_responses ..)) active.table active.entry
  refine ⟨fun hd => (nomatch hd), fun other hd => ?_, fun other hd => ?_⟩
  · obtain rfl := Option.some.inj hd
    exact ⟨hhere, hothers, hrefused⟩
  · obtain rfl := Option.some.inj hd
    show (response? _ _ _).map Response.priority = some active.priority
    rw [hp, ← Option.map_some, ← hr, ← hsame]
    rfl

end Settled

end Dispatch

end Conductor
