/-!
Finite maps kept as a list of bindings in strictly ascending order of their keys. Two maps with
the same bindings are equal, and every traversal visits the keys in order. A set of keys is a map
to `Unit`.
-/

namespace Conductor

/-- A linear order on keys, given as the test that one key comes strictly before another. -/
class Key (κ : Type) where
  before : κ → κ → Bool
  irrefl : ∀ a, before a a = false
  trans : ∀ {a b c}, before a b → before b c → before a c
  total : ∀ {a b}, before a b = false → before b a = false → a = b

namespace Key

/-- Text is ordered by code points, which is also the order of its encoded bytes. -/
instance : Key String where
  before a b := decide (a < b)
  irrefl a := by simp
  trans h k := by
    simp only [decide_eq_true_eq] at *
    exact String.lt_trans h k
  total h k := by
    simp only [decide_eq_false_iff_not] at h k
    exact String.le_antisymm (String.not_lt.mp k) (String.not_lt.mp h)

/-- Keys that are told apart by another key inherit its order. -/
@[reducible] def onField {κ σ : Type} [Key σ] (field : κ → σ)
    (injective : ∀ {a b}, field a = field b → a = b) : Key κ where
  before a b := before (field a) (field b)
  irrefl a := irrefl (field a)
  trans := trans
  total h k := injective (total h k)

/-- Pairs are ordered by their first component, then by their second. -/
instance {κ σ : Type} [Key κ] [Key σ] : Key (κ × σ) where
  before a b := before a.1 b.1 || (!before b.1 a.1 && before a.2 b.2)
  irrefl a := by simp [irrefl]
  trans {a b c} h k := by
    simp only [Bool.or_eq_true, Bool.and_eq_true, Bool.not_eq_true'] at *
    rcases h with h | ⟨h, h'⟩ <;> rcases k with k | ⟨k, k'⟩
    · exact .inl (trans h k)
    · by_cases e : before b.1 c.1 = true
      · exact .inl (trans h e)
      · exact .inl ((total (Bool.not_eq_true _ ▸ e) k) ▸ h)
    · by_cases e : before a.1 b.1 = true
      · exact .inl (trans e k)
      · exact .inl ((total (Bool.not_eq_true _ ▸ e) h).symm ▸ k)
    · refine .inr ⟨?_, trans h' k'⟩
      by_cases e : before a.1 b.1 = true
      · by_cases e' : before c.1 a.1 = true
        · exact absurd (trans e' e) (by simp [k])
        · simpa using e'
      · rw [total (Bool.not_eq_true _ ▸ e) h]
        exact k
  total {a b} h k := by
    simp only [Bool.or_eq_false_iff, Bool.and_eq_false_imp, Bool.not_eq_true'] at h k
    exact Prod.ext (total h.1 k.1) (total (h.2 k.1) (k.2 h.1))

theorem ne_of_before {κ : Type} [Key κ] {a b : κ} (h : before a b = true) : a ≠ b := by
  rintro rfl
  simp [irrefl] at h

end Key

/-- Bindings in strictly ascending order of their keys. -/
@[ext] structure Dict (κ : Type) [Key κ] (α : Type) where
  entries : List (κ × α)
  ascending : entries.Pairwise fun p q => Key.before p.1 q.1
deriving DecidableEq

/-- A set of keys. -/
abbrev KeySet (κ : Type) [Key κ] := Dict κ Unit

namespace Dict

variable {κ : Type} [Key κ] {α β : Type}

/-- Puts a binding in its place, replacing the one the key had. -/
def insertEntry (key : κ) (value : α) : List (κ × α) → List (κ × α)
  | [] => [(key, value)]
  | (k, v) :: rest =>
    if Key.before k key then (k, v) :: insertEntry key value rest
    else if Key.before key k then (key, value) :: (k, v) :: rest
    else (key, value) :: rest

theorem mem_insertEntry {key : κ} {value : α} {entries : List (κ × α)} {p : κ × α}
    (h : p ∈ insertEntry key value entries) : p = (key, value) ∨ p ∈ entries := by
  induction entries with
  | nil => simpa [insertEntry] using h
  | cons e rest ih =>
    simp only [insertEntry] at h
    split at h
    · rcases List.mem_cons.mp h with rfl | h
      · exact .inr List.mem_cons_self
      · exact (ih h).imp id (List.mem_cons_of_mem _)
    · split at h
      · simpa using h
      · exact (List.mem_cons.mp h).imp id (List.mem_cons_of_mem _)

theorem insertEntry_ascending (key : κ) (value : α) {entries : List (κ × α)}
    (h : entries.Pairwise fun p q => Key.before p.1 q.1) :
    (insertEntry key value entries).Pairwise fun p q => Key.before p.1 q.1 := by
  induction entries with
  | nil => simp [insertEntry]
  | cons e rest ih =>
    obtain ⟨he, hr⟩ := List.pairwise_cons.mp h
    simp only [insertEntry]
    split
    · rename_i hgt
      refine List.pairwise_cons.mpr ⟨?_, ih hr⟩
      intro q hq
      rcases mem_insertEntry hq with rfl | hq
      · exact hgt
      · exact he q hq
    · split
      · rename_i hlt
        refine List.pairwise_cons.mpr ⟨?_, h⟩
        intro q hq
        rcases List.mem_cons.mp hq with rfl | hq
        · exact hlt
        · exact Key.trans hlt (he q hq)
      · rename_i h1 h2
        have : e.1 = key := Key.total (by simpa using h1) (by simpa using h2)
        exact List.pairwise_cons.mpr ⟨fun q hq => this ▸ he q hq, hr⟩

/-- The map without bindings. -/
def empty : Dict κ α := ⟨[], .nil⟩

instance : EmptyCollection (Dict κ α) := ⟨empty⟩
instance : Inhabited (Dict κ α) := ⟨empty⟩

/-- Binds a key, replacing the value it had. -/
def insert (d : Dict κ α) (key : κ) (value : α) : Dict κ α :=
  ⟨insertEntry key value d.entries, insertEntry_ascending key value d.ascending⟩

/-- Removes a key. -/
def erase [DecidableEq κ] (d : Dict κ α) (key : κ) : Dict κ α :=
  ⟨d.entries.filter fun p => p.1 ≠ key, d.ascending.filter _⟩

/-- The value bound to a key. -/
def get? [DecidableEq κ] (d : Dict κ α) (key : κ) : Option α :=
  (d.entries.find? fun p => p.1 == key).map Prod.snd

/-- Whether a key is bound. -/
def contains [DecidableEq κ] (d : Dict κ α) (key : κ) : Bool :=
  d.entries.any fun p => p.1 == key

/-- Changes the value of a key that is bound, and nothing otherwise. -/
def modify [DecidableEq κ] (d : Dict κ α) (key : κ) (f : α → α) : Dict κ α :=
  match d.get? key with
  | some value => d.insert key (f value)
  | none => d

/-- Keeps the bindings that pass a test. -/
def filter (d : Dict κ α) (p : κ → α → Bool) : Dict κ α :=
  ⟨d.entries.filter fun e => p e.1 e.2, d.ascending.filter _⟩

/-- The keys in ascending order. -/
def keys (d : Dict κ α) : List κ := d.entries.map Prod.fst

/-- The number of bindings. -/
def size (d : Dict κ α) : Nat := d.entries.length

def isEmpty (d : Dict κ α) : Bool := d.entries.isEmpty

/-- Binds each pair in turn; a later binding of a key replaces an earlier one. -/
def ofList (bindings : List (κ × α)) : Dict κ α :=
  bindings.foldl (fun d p => d.insert p.1 p.2) empty

end Dict

namespace KeySet

variable {κ : Type} [Key κ]

/-- Adds a key to a set. -/
def add (s : KeySet κ) (key : κ) : KeySet κ := Dict.insert s key ()

/-- The set of the listed keys. -/
def ofList (keys : List κ) : KeySet κ := keys.foldl add Dict.empty

end KeySet

end Conductor
