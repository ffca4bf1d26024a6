import Conductor.Fault.Dispatch

/-!
Selection of responses. A table provides the most urgent of its eligible responses, the earliest
of equally urgent ones, and a fault is offered to the nearest table that has one. The phases of
the responses have no part in it.
-/

namespace Conductor

namespace ResponseTable

variable {f : Fault} {inReach : Reach → Bool}

/-- The response at a position is the one to be provided: the most urgent of the eligible ones, and
more urgent than those before it. -/
structure Provides (responses : List Response) (f : Fault) (inReach : Reach → Bool) (entry : Nat)
    (r : Response) : Prop where
  get : responses[entry]? = some r
  fits : eligible f inReach r = true
  highest : ∀ (i : Nat) r', responses[i]? = some r' → eligible f inReach r' = true →
    r'.priority ≤ r.priority
  earliest : ∀ (i : Nat) r', i < entry → responses[i]? = some r' →
    eligible f inReach r' = true → r'.priority < r.priority

/-- What a search through responses comes to. -/
def Best (responses : List Response) (f : Fault) (inReach : Reach → Bool) :
    Option (Nat × Response) → Prop
  | none => ∀ r ∈ responses, eligible f inReach r = false
  | some (entry, r) => Provides responses f inReach entry r

theorem Provides.lt {l : List Response} {entry : Nat} {r : Response}
    (h : Provides l f inReach entry r) : entry < l.length := by
  obtain ⟨hlt, _⟩ := List.getElem?_eq_some_iff.mp h.get
  exact hlt

theorem get_concat {l : List Response} {r r' : Response} {i : Nat}
    (h : (l ++ [r])[i]? = some r') : l[i]? = some r' ∨ i = l.length ∧ r' = r := by
  rcases Nat.lt_trichotomy i l.length with hi | rfl | hi
  · rw [List.getElem?_append_left hi] at h
    exact .inl h
  · rw [List.getElem?_concat_length] at h
    exact .inr ⟨rfl, (Option.some.inj h).symm⟩
  · rw [List.getElem?_eq_none (by simp; omega)] at h
    cases h

/-- An ineligible response changes nothing. -/
theorem Provides.skip {l : List Response} {entry : Nat} {b r : Response}
    (h : Provides l f inReach entry b) (hr : eligible f inReach r = false) :
    Provides (l ++ [r]) f inReach entry b := by
  refine ⟨?_, h.fits, ?_, ?_⟩
  · rw [List.getElem?_append_left h.lt]
    exact h.get
  · intro i r' hi he
    rcases get_concat hi with hi | ⟨_, rfl⟩
    · exact h.highest i r' hi he
    · rw [hr] at he
      cases he
  · intro i r' hlt hi he
    rcases get_concat hi with hi | ⟨_, rfl⟩
    · exact h.earliest i r' hlt hi he
    · rw [hr] at he
      cases he

/-- A response that is not more urgent than the best one so far changes nothing. -/
theorem Provides.hold {l : List Response} {entry : Nat} {b r : Response}
    (h : Provides l f inReach entry b) (hr : r.priority ≤ b.priority) :
    Provides (l ++ [r]) f inReach entry b := by
  refine ⟨?_, h.fits, ?_, ?_⟩
  · rw [List.getElem?_append_left h.lt]
    exact h.get
  · intro i r' hi he
    rcases get_concat hi with hi | ⟨_, rfl⟩
    · exact h.highest i r' hi he
    · exact hr
  · intro i r' hlt hi he
    rcases get_concat hi with hi | ⟨rfl, _⟩
    · exact h.earliest i r' hlt hi he
    · exact absurd hlt (Nat.lt_asymm h.lt)

/-- A response that is more urgent than all eligible ones before it takes their place. -/
theorem Provides.take {l : List Response} {r : Response}
    (h : ∀ (i : Nat) r', l[i]? = some r' → eligible f inReach r' = true →
      r'.priority < r.priority)
    (hr : eligible f inReach r = true) :
    Provides (l ++ [r]) f inReach l.length r := by
  refine ⟨List.getElem?_concat_length, hr, ?_, ?_⟩
  · intro i r' hi he
    rcases get_concat hi with hi | ⟨_, rfl⟩
    · exact Int.le_of_lt (h i r' hi he)
    · exact Int.le_refl _
  · intro i r' hlt hi he
    rcases get_concat hi with hi | ⟨rfl, _⟩
    · exact h i r' hi he
    · exact absurd hlt (Nat.lt_irrefl _)

/-- One response more. -/
theorem Best.step {l : List Response} {best : Option (Nat × Response)}
    (h : Best l f inReach best) (r : Response) :
    Best (l ++ [r]) f inReach
      (if eligible f inReach r then better best l.length r else best) := by
  cases hr : eligible f inReach r with
  | false =>
    rw [if_neg Bool.false_ne_true]
    match best, h with
    | none, h =>
      intro r' hr'
      rcases List.mem_append.mp hr' with hr' | hr'
      · exact h r' hr'
      · rw [List.mem_singleton.mp hr']
        exact hr
    | some (entry, b), h => exact Provides.skip h hr
  | true =>
    rw [if_pos rfl]
    match best, h with
    | none, h =>
      refine Provides.take ?_ hr
      intro i r' hi he
      rw [h r' (List.mem_of_getElem? hi)] at he
      cases he
    | some (entry, b), h =>
      have hb : Provides l f inReach entry b := h
      simp only [better]
      split
      · rename_i hge
        exact hb.hold hge
      · rename_i hlt
        refine Provides.take ?_ hr
        intro i r' hi he
        have := hb.highest i r' hi he
        omega

theorem Best.selectFrom {l : List Response} {best : Option (Nat × Response)}
    (h : Best l f inReach best) (rest : List Response) :
    Best (l ++ rest) f inReach (ResponseTable.selectFrom f inReach rest l.length best) := by
  induction rest generalizing l best with
  | nil => simpa [ResponseTable.selectFrom] using h
  | cons r rest ih =>
    have hstep := ih (h.step r)
    rw [List.append_assoc, List.length_append] at hstep
    exact hstep

theorem select_best (t : ResponseTable) (f : Fault) (inReach : Reach → Bool) :
    Best t.responses f inReach (t.select f inReach) := by
  have hnil : Best [] f inReach none := fun r hr => absurd hr List.not_mem_nil
  exact hnil.selectFrom t.responses

theorem Provides.unique {l : List Response} {i j : Nat} {a b : Response}
    (ha : Provides l f inReach i a) (hb : Provides l f inReach j b) : (i, a) = (j, b) := by
  have hij : i = j := by
    rcases Nat.lt_trichotomy i j with h | h | h
    · have := hb.earliest i a h ha.get ha.fits
      have := ha.highest j b hb.get hb.fits
      omega
    · exact h
    · have := ha.earliest j b h hb.get hb.fits
      have := hb.highest i a ha.get ha.fits
      omega
  subst hij
  rw [Option.some.inj (ha.get.symm.trans hb.get)]

theorem select_eq_some_iff {t : ResponseTable} {entry : Nat} {r : Response} :
    t.select f inReach = some (entry, r) ↔ Provides t.responses f inReach entry r := by
  have hbest := select_best t f inReach
  constructor
  · intro h
    rw [h] at hbest
    exact hbest
  · intro h
    cases hs : t.select f inReach with
    | none =>
      rw [hs] at hbest
      have := hbest r (List.mem_of_getElem? h.get)
      rw [h.fits] at this
      cases this
    | some selected =>
      rw [hs] at hbest
      rw [Provides.unique h hbest]

theorem select_eq_none_iff {t : ResponseTable} :
    t.select f inReach = none ↔ ∀ r ∈ t.responses, eligible f inReach r = false := by
  have hbest := select_best t f inReach
  constructor
  · intro h
    rw [h] at hbest
    exact hbest
  · intro h
    cases hs : t.select f inReach with
    | none => rfl
    | some selected =>
      rw [hs] at hbest
      have hprovides : Provides t.responses f inReach selected.1 selected.2 := hbest
      have := h selected.2 (List.mem_of_getElem? hprovides.get)
      rw [hprovides.fits] at this
      cases this

/-- Moving an entry on in its life leaves the responses as they are. -/
theorem advance?_responses {t t' : ResponseTable} {entry : Nat} {next : Phase}
    (h : t.advance? entry next = some t') : t'.responses = t.responses := by
  unfold advance? at h
  split at h
  · rename_i e he
    split at h
    · cases h
      obtain ⟨hlt, rfl⟩ := List.getElem?_eq_some_iff.mp he
      simp only [responses, List.map_set]
      rw [← List.getElem_map Entry.response (h := by simpa using hlt), List.set_getElem_self]
    · cases h
  · cases h

end ResponseTable

namespace Dispatch

variable {f : Fault} {inReach : Reach → Bool}

/-- A target is of the nearest table, from the given one outwards, that has an eligible response,
and it is the response that this table provides. -/
structure Nearest (d : Dispatch) (f : Fault) (inReach : Reach → Bool) (first : Nat)
    (target : Target) : Prop where
  outwards : first ≤ target.table
  provided : ∃ t, d.tables[target.table]? = some t ∧
    t.select f inReach = some (target.entry, target.response)
  nearest : ∀ (k : Nat) t, first ≤ k → k < target.table → d.tables[k]? = some t →
    ∀ r ∈ t.responses, ResponseTable.eligible f inReach r = false

theorem Nearest.lt {d : Dispatch} {first : Nat} {target : Target}
    (h : d.Nearest f inReach first target) : target.table < d.tables.length := by
  obtain ⟨t, ht, _⟩ := h.provided
  obtain ⟨hlt, _⟩ := List.getElem?_eq_some_iff.mp ht
  exact hlt

theorem selectIn_some {tables : List ResponseTable} {first : Nat} {target : Target}
    (h : selectIn f inReach tables first = some target) :
    ∃ n, target.table = first + n ∧
      (∃ t, tables[n]? = some t ∧ t.select f inReach = some (target.entry, target.response)) ∧
      ∀ k t, k < n → tables[k]? = some t → t.select f inReach = none := by
  induction tables generalizing first with
  | nil => cases h
  | cons t rest ih =>
    simp only [selectIn] at h
    split at h
    · rename_i entry response hs
      cases h
      exact ⟨0, rfl, ⟨t, rfl, hs⟩, fun k _ hk => absurd hk (Nat.not_lt_zero k)⟩
    · rename_i hs
      obtain ⟨n, htable, hprovided, hnearer⟩ := ih h
      refine ⟨n + 1, by omega, hprovided, ?_⟩
      intro k t' hk ht'
      cases k with
      | zero =>
        cases ht'
        exact hs
      | succ k => exact hnearer k t' (Nat.lt_of_succ_lt_succ hk) ht'

theorem selectIn_none {tables : List ResponseTable} {first : Nat} :
    selectIn f inReach tables first = none ↔ ∀ t ∈ tables, t.select f inReach = none := by
  induction tables generalizing first with
  | nil => simp [selectIn]
  | cons t rest ih =>
    simp only [selectIn, List.forall_mem_cons]
    split
    · rename_i hs
      simp [hs]
    · rename_i hs
      simp [hs, ih]

/-- The search finds nothing exactly when no table, from the given one outwards, has an eligible
response. -/
theorem selectFrom_eq_none_iff {d : Dispatch} {first : Nat} :
    d.selectFrom f first inReach = none ↔ ∀ k t, first ≤ k → d.tables[k]? = some t →
      ∀ r ∈ t.responses, ResponseTable.eligible f inReach r = false := by
  unfold selectFrom
  rw [selectIn_none]
  constructor
  · intro h k t hk ht
    refine ResponseTable.select_eq_none_iff.mp (h t (List.mem_of_getElem? (i := k - first) ?_))
    rw [List.getElem?_drop, Nat.add_sub_cancel' hk]
    exact ht
  · intro h t ht
    obtain ⟨n, hn⟩ := List.getElem?_of_mem ht
    rw [List.getElem?_drop] at hn
    exact ResponseTable.select_eq_none_iff.mpr (h _ t (Nat.le_add_right first n) hn)

theorem Nearest.of_selectFrom {d : Dispatch} {first : Nat} {target : Target}
    (h : d.selectFrom f first inReach = some target) : d.Nearest f inReach first target := by
  obtain ⟨n, htable, ⟨t, ht, hs⟩, hnearer⟩ := selectIn_some h
  rw [List.getElem?_drop, ← htable] at ht
  refine ⟨by omega, ⟨t, ht, hs⟩, ?_⟩
  intro k t' hk hlt ht'
  refine ResponseTable.select_eq_none_iff.mp (hnearer (k - first) t' (by omega) ?_)
  rw [List.getElem?_drop, Nat.add_sub_cancel' hk]
  exact ht'

/-- Of two nearest targets none is nearer than the other. -/
theorem Nearest.not_lt {d : Dispatch} {first : Nat} {a b : Target}
    (ha : d.Nearest f inReach first a) (hb : d.Nearest f inReach first b) :
    ¬ a.table < b.table := by
  intro hlt
  obtain ⟨t, ht, hs⟩ := ha.provided
  have hnone := ResponseTable.select_eq_none_iff.mpr (hb.nearest _ t ha.outwards hlt ht)
  rw [hs] at hnone
  cases hnone

theorem Nearest.unique {d : Dispatch} {first : Nat} {a b : Target}
    (ha : d.Nearest f inReach first a) (hb : d.Nearest f inReach first b) : a = b := by
  have htable : a.table = b.table := by
    have := ha.not_lt hb
    have := hb.not_lt ha
    omega
  obtain ⟨t, ht, hs⟩ := ha.provided
  obtain ⟨t', ht', hs'⟩ := hb.provided
  rw [htable] at ht
  cases ht.symm.trans ht'
  have hsame := Option.some.inj (hs.symm.trans hs')
  cases a
  cases b
  simp_all

/-- The search finds the response of the nearest table that has an eligible one. -/
theorem selectFrom_eq_some_iff {d : Dispatch} {first : Nat} {target : Target} :
    d.selectFrom f first inReach = some target ↔ d.Nearest f inReach first target := by
  constructor
  · exact Nearest.of_selectFrom
  · intro h
    cases hs : d.selectFrom f first inReach with
    | none =>
      obtain ⟨t, ht, hselected⟩ := h.provided
      have hnone := ResponseTable.select_eq_none_iff.mpr
        (selectFrom_eq_none_iff.mp hs _ t h.outwards ht)
      rw [hselected] at hnone
      cases hnone
    | some found => rw [(Nearest.of_selectFrom hs).unique h]

/-! ## Phases -/

/-- The responses of every table, whatever their phases. -/
def responses (d : Dispatch) : List (List Response) := d.tables.map ResponseTable.responses

@[simp] theorem advance_responses (d : Dispatch) (table entry : Nat) (next : Phase) :
    (d.advance table entry next).responses = d.responses := by
  unfold advance advance?
  cases h : d.tables[table]?.bind fun t => t.advance? entry next with
  | none => rfl
  | some t' =>
    obtain ⟨t, ht, ha⟩ := Option.bind_eq_some_iff.mp h
    obtain ⟨hlt, rfl⟩ := List.getElem?_eq_some_iff.mp ht
    simp only [Option.map_some, Option.getD_some, responses, List.map_set,
      ResponseTable.advance?_responses ha]
    rw [← List.getElem_map ResponseTable.responses (h := by simpa using hlt),
      List.set_getElem_self]

theorem selectIn_congr {tables tables' : List ResponseTable} {first : Nat}
    (h : tables.map ResponseTable.responses = tables'.map ResponseTable.responses) :
    selectIn f inReach tables first = selectIn f inReach tables' first := by
  induction tables generalizing tables' first with
  | nil =>
    cases tables' with
    | nil => rfl
    | cons t' rest' => cases h
  | cons t rest ih =>
    cases tables' with
    | nil => cases h
    | cons t' rest' =>
      obtain ⟨ht, hrest⟩ := List.cons.inj h
      simp only [selectIn, ResponseTable.select, ht, ih hrest]

/-- Whom a fault is offered to depends on nothing but the responses. -/
theorem selectFrom_congr {d d' : Dispatch} {first : Nat} (h : d.responses = d'.responses) :
    d.selectFrom f first inReach = d'.selectFrom f first inReach := by
  refine selectIn_congr ?_
  rw [List.map_drop, List.map_drop]
  exact congrArg (List.drop first) h

theorem length_congr {d d' : Dispatch} (h : d.responses = d'.responses) :
    d.tables.length = d'.tables.length := by
  have := congrArg List.length h
  simpa [responses] using this

theorem response?_eq (d : Dispatch) (table entry : Nat) :
    d.response? table entry = d.responses[table]?.bind fun rs => rs[entry]? := by
  unfold response? responses ResponseTable.response?
  rw [List.getElem?_map]
  cases d.tables[table]? with
  | none => rfl
  | some t => simp [ResponseTable.responses]

theorem response?_congr {d d' : Dispatch} (h : d.responses = d'.responses) (table entry : Nat) :
    d.response? table entry = d'.response? table entry := by
  rw [response?_eq, response?_eq, h]

/-- A target that was selected is found where it says. -/
theorem response?_of_selectFrom {d : Dispatch} {first : Nat} {target : Target}
    (h : d.selectFrom f first inReach = some target) :
    d.response? target.table target.entry = some target.response := by
  obtain ⟨t, ht, hprovided⟩ := (Nearest.of_selectFrom h).provided
  have hget := (ResponseTable.select_eq_some_iff.mp hprovided).get
  rw [response?_eq, responses, List.getElem?_map, ht]
  exact hget

end Dispatch

end Conductor
