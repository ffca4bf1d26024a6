import Conductor.Dict

/-! What a map holds after each of its operations. A binding changes what is held under its own
key and under no other, so none of these needs the order of the keys. What does need it is that a map
is determined by what it holds. -/

namespace Conductor.Dict

variable {κ : Type} [Key κ] [DecidableEq κ] {α β : Type}

theorem find?_insertEntry_self (key : κ) (value : α) (entries : List (κ × α)) :
    (insertEntry key value entries).find? (fun p => p.1 == key) = some (key, value) := by
  induction entries with
  | nil => simp [insertEntry]
  | cons e rest ih =>
    simp only [insertEntry]
    split
    · rename_i h
      have hne : e.1 ≠ key := Key.ne_of_before h
      rw [List.find?_cons_of_neg (by simpa using hne)]
      exact ih
    · split <;> simp

theorem find?_insertEntry_of_ne {key other : κ} (hne : other ≠ key) (value : α)
    (entries : List (κ × α)) :
    (insertEntry key value entries).find? (fun p => p.1 == other) =
      entries.find? (fun p => p.1 == other) := by
  have hkey : key ≠ other := Ne.symm hne
  induction entries with
  | nil => simp [insertEntry, hkey]
  | cons e rest ih =>
    simp only [insertEntry]
    split
    · simp only [List.find?_cons, ih]
    · split
      · rw [List.find?_cons_of_neg (by simpa using hkey)]
      · rename_i h₁ h₂
        have he : e.1 = key := Key.total (by simpa using h₁) (by simpa using h₂)
        rw [List.find?_cons_of_neg (by simpa using hkey),
          List.find?_cons_of_neg (by simpa [he] using hkey)]

theorem get?_insert (d : Dict κ α) (key other : κ) (value : α) :
    (d.insert key value).get? other = if other = key then some value else d.get? other := by
  unfold get? insert
  split
  · rename_i h
    rw [h, find?_insertEntry_self]
    rfl
  · rename_i h
    rw [find?_insertEntry_of_ne h]

@[simp] theorem get?_insert_self (d : Dict κ α) (key : κ) (value : α) :
    (d.insert key value).get? key = some value := by
  rw [get?_insert, if_pos rfl]

theorem get?_erase (d : Dict κ α) (key other : κ) :
    (d.erase key).get? other = if other = key then none else d.get? other := by
  unfold get? erase
  simp only [List.find?_filter]
  split
  · rename_i h
    rw [List.find?_eq_none.mpr]
    · rfl
    · intro p _
      simp [h]
  · rename_i h
    congr 2
    funext p
    by_cases hp : p.1 = other
    · simp [hp, h]
    · simp [hp]

theorem get?_modify (d : Dict κ α) (key other : κ) (f : α → α) :
    (d.modify key f).get? other = if other = key then (d.get? other).map f else d.get? other := by
  unfold modify
  by_cases hkey : other = key
  · rw [if_pos hkey, hkey]
    cases hheld : d.get? key with
    | none => exact hheld
    | some value => exact get?_insert_self ..
  · rw [if_neg hkey]
    cases d.get? key with
    | none => rfl
    | some value => rw [get?_insert, if_neg hkey]

theorem contains_eq_isSome (d : Dict κ α) (key : κ) : d.contains key = (d.get? key).isSome := by
  unfold contains get?
  rw [Option.isSome_map, Bool.eq_iff_iff, List.find?_isSome, List.any_eq_true]

@[simp] theorem get?_empty (key : κ) : (empty : Dict κ α).get? key = none := rfl

theorem mem_keys {d : Dict κ α} {key : κ} : key ∈ d.keys ↔ d.contains key = true := by
  unfold keys contains
  rw [List.mem_map, List.any_eq_true]
  simp only [beq_iff_eq]

omit [DecidableEq κ] in
theorem nodup_keys (d : Dict κ α) : d.keys.Nodup :=
  List.pairwise_map.mpr (d.ascending.imp Key.ne_of_before)

omit [DecidableEq κ] in
/-- Of two values for a key the later one counts. -/
theorem insert_insert (d : Dict κ α) (key : κ) (first value : α) :
    (d.insert key first).insert key value = d.insert key value := by
  refine Dict.ext ?_
  show insertEntry key value (insertEntry key first d.entries) = insertEntry key value d.entries
  induction d.entries with
  | nil => simp [insertEntry, Key.irrefl]
  | cons e rest ih =>
    by_cases hbefore : Key.before e.1 key = true
    · simp [insertEntry, hbefore, ih]
    · by_cases hafter : Key.before key e.1 = true <;>
        simp [insertEntry, hbefore, hafter, Key.irrefl]

/-- What is removed might as well not have been bound. -/
theorem erase_insert (d : Dict κ α) (key : κ) (value : α) :
    (d.insert key value).erase key = d.erase key := by
  refine Dict.ext ?_
  show (insertEntry key value d.entries).filter (fun p => p.1 ≠ key) =
    d.entries.filter fun p => p.1 ≠ key
  induction d.entries with
  | nil => simp [insertEntry]
  | cons e rest ih =>
    by_cases hbefore : Key.before e.1 key = true
    · simp only [insertEntry, if_pos hbefore, List.filter_cons, ih]
    · by_cases hafter : Key.before key e.1 = true
      · simp [insertEntry, hbefore, hafter]
      · have hkey : e.1 = key := Key.total (by simpa using hbefore) (by simpa using hafter)
        simp [insertEntry, hkey, Key.irrefl]

/-- A map that binds no key is empty. -/
theorem eq_empty {d : Dict κ α} (h : ∀ key, d.contains key = false) : d = .empty := by
  refine Dict.ext ?_
  cases he : d.entries with
  | nil => rfl
  | cons e rest =>
    have hbound := h e.1
    simp [contains, he] at hbound

/-- A key that comes before all that are bound is not bound. -/
theorem find?_of_before {key : κ} {entries : List (κ × α)}
    (h : ∀ e ∈ entries, Key.before key e.1 = true) :
    entries.find? (fun p => p.1 == key) = none := by
  rw [List.find?_eq_none]
  intro e he hkey
  exact Key.ne_of_before (h e he) (beq_iff_eq.mp hkey).symm

/-- Bindings in ascending order are determined by what is found for each key. -/
theorem entries_ext {entries entries' : List (κ × α)}
    (hd : entries.Pairwise fun p q => Key.before p.1 q.1)
    (hd' : entries'.Pairwise fun p q => Key.before p.1 q.1)
    (h : ∀ key, entries.find? (fun p => p.1 == key) = entries'.find? (fun p => p.1 == key)) :
    entries = entries' := by
  induction entries generalizing entries' with
  | nil =>
    cases entries' with
    | nil => rfl
    | cons e' rest' => simpa using h e'.1
  | cons e rest ih =>
    cases entries' with
    | nil => simpa using h e.1
    | cons e' rest' =>
      obtain ⟨he, hrest⟩ := List.pairwise_cons.mp hd
      obtain ⟨he', hrest'⟩ := List.pairwise_cons.mp hd'
      -- the smaller of the two first keys would be bound on one side only
      have hfirst : e.1 = e'.1 := by
        refine Key.total (Bool.eq_false_iff.mpr fun hb => ?_) (Bool.eq_false_iff.mpr fun hb => ?_)
        · have hnone : (e' :: rest').find? (fun p => p.1 == e.1) = none :=
            find?_of_before (List.forall_mem_cons.mpr ⟨hb, fun q hq => Key.trans hb (he' q hq)⟩)
          simpa [hnone] using h e.1
        · have hnone : (e :: rest).find? (fun p => p.1 == e'.1) = none :=
            find?_of_before (List.forall_mem_cons.mpr ⟨hb, fun q hq => Key.trans hb (he q hq)⟩)
          simpa [hnone] using h e'.1
      have hhead : e = e' := by simpa [hfirst] using h e.1
      subst hhead
      refine congrArg (e :: ·) (ih hrest hrest' fun key => ?_)
      by_cases hkey : e.1 = key
      · rw [← hkey, find?_of_before he, find?_of_before he']
      · simpa [hkey] using h key

theorem find?_entries (d : Dict κ α) (key : κ) :
    d.entries.find? (fun p => p.1 == key) = (d.get? key).map fun value => (key, value) := by
  unfold get?
  cases h : d.entries.find? (fun p => p.1 == key) with
  | none => rfl
  | some e =>
    have he : e.1 = key := by simpa using List.find?_some h
    simp [← he]

theorem get?_eq_some_iff {d : Dict κ α} {key : κ} {value : α} :
    d.get? key = some value ↔ (key, value) ∈ d.entries := by
  constructor
  · intro h
    have hfound := find?_entries d key
    rw [h] at hfound
    exact List.mem_of_find?_eq_some hfound
  · intro h
    obtain ⟨front, back, he⟩ := List.append_of_mem h
    have hascending := d.ascending
    rw [he, List.pairwise_append] at hascending
    have hfront : front.find? (fun p => p.1 == key) = none := by
      refine List.find?_eq_none.mpr fun e hmem => ?_
      have hne := Key.ne_of_before (hascending.2.2 e hmem _ List.mem_cons_self)
      simpa using hne
    unfold get?
    rw [he, List.find?_append, hfront]
    simp

/-- Maps that hold the same are equal. -/
theorem ext_get? {d d' : Dict κ α} (h : ∀ key, d.get? key = d'.get? key) : d = d' := by
  refine Dict.ext (entries_ext d.ascending d'.ascending fun key => ?_)
  rw [find?_entries, find?_entries, h]

/-- To bind a key to what it is bound to changes nothing. -/
theorem insert_of_get? {d : Dict κ α} {key : κ} {value : α} (h : d.get? key = some value) :
    d.insert key value = d := by
  refine ext_get? fun other => ?_
  rw [get?_insert]
  split
  · rename_i hother
    rw [hother, h]
  · rfl

theorem erase_of_get? {d : Dict κ α} {key : κ} (h : d.get? key = none) : d.erase key = d := by
  refine ext_get? fun other => ?_
  rw [get?_erase]
  split
  · rename_i hother
    rw [hother, h]
  · rfl

theorem insert_comm {key key' : κ} (hne : key ≠ key') (d : Dict κ α) (value value' : α) :
    (d.insert key value).insert key' value' = (d.insert key' value').insert key value := by
  refine ext_get? fun other => ?_
  simp only [get?_insert]
  by_cases h : other = key
  · simp [h, hne]
  · simp [h]

theorem get?_filter (d : Dict κ α) (p : κ → Bool) (key : κ) :
    (d.filter fun key _ => p key).get? key = if p key then d.get? key else none := by
  unfold get? filter
  simp only [List.find?_filter]
  split
  · rename_i h
    congr 2
    funext e
    by_cases he : e.1 = key <;> simp [he, h]
  · rename_i h
    rw [List.find?_eq_none.mpr]
    · rfl
    · intro e _
      by_cases he : e.1 = key <;> simp [he, h]

theorem get?_foldl_insert (f : α → β) {entries : List (κ × α)}
    (h : entries.Pairwise fun p q => Key.before p.1 q.1) (held : Dict κ β) (key : κ) :
    (entries.foldl (fun m e => m.insert e.1 (f e.2)) held).get? key =
      ((entries.find? fun p => p.1 == key).map fun e => f e.2).or (held.get? key) := by
  induction entries generalizing held with
  | nil => simp
  | cons e rest ih =>
    obtain ⟨he, hrest⟩ := List.pairwise_cons.mp h
    rw [List.foldl_cons, ih hrest, get?_insert]
    by_cases hkey : key = e.1
    · simp [hkey, find?_of_before he]
    · simp [hkey, Ne.symm hkey]

/-- Binding all that a map binds hides what was bound before. -/
theorem get?_insertAll (f : α → β) (d : Dict κ α) (held : Dict κ β) (key : κ) :
    (d.entries.foldl (fun m e => m.insert e.1 (f e.2)) held).get? key =
      ((d.get? key).map f).or (held.get? key) := by
  rw [get?_foldl_insert f d.ascending, find?_entries, Option.map_map]
  rfl

end Conductor.Dict

namespace Conductor.KeySet

variable {κ : Type} [Key κ] [DecidableEq κ]

theorem contains_add (s : KeySet κ) (key other : κ) :
    (s.add key).contains other = (decide (other = key) || s.contains other) := by
  rw [Dict.contains_eq_isSome, Dict.contains_eq_isSome, add, Dict.get?_insert]
  split
  · rename_i h
    simp [h]
  · rename_i h
    simp [h]

theorem contains_addAll (keys : List κ) (s : KeySet κ) (key : κ) :
    (keys.foldl add s).contains key = true ↔ key ∈ keys ∨ s.contains key = true := by
  induction keys generalizing s with
  | nil => simp
  | cons first rest ih =>
    rw [List.foldl_cons, ih, contains_add, List.mem_cons, Bool.or_eq_true, decide_eq_true_eq,
      or_assoc, or_left_comm]

end Conductor.KeySet
