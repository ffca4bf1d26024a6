import Conductor.Proofs.Scopes.Transparency

/-!
What scopes have on a name. The innermost scope that knows a name decides about it: the value that it
holds is the one that is read, and where it holds none its declaration says where the value comes
from. Operations are described by what they do to this and to the outputs of steps.
-/

namespace Conductor

/-- What is found hangs on what there is to find in each place. -/
theorem List.findSome?_of_map {α β : Type} {f : α → Option β} {l l' : List α}
    (h : l'.map f = l.map f) : l'.findSome? f = l.findSome? f := by
  have hmap : ∀ l : List α, l.findSome? f = (l.map f).findSome? id := fun l => by
    rw [List.findSome?_map]
    rfl
  rw [hmap, hmap, h]

theorem List.set_of_getElem? {α : Type} {l : List α} {i : Nat} {a : α} (h : l[i]? = some a) :
    l.set i a = l := by
  obtain ⟨hi, rfl⟩ := List.getElem?_eq_some_iff.1 h
  exact List.set_getElem_self hi

/-- The value that a rule finds. -/
def Rule.supply (argument? output? : String → Option Value) : Rule → Option Value
  | .constant value => some value
  | .argument name => argument? name
  | .stepOutput label => output? label
  | .assigned => none

/-- A value is found once and then kept, unless a step may put out another one. -/
def Rule.isLasting : Rule → Bool
  | .constant _ | .argument _ => true
  | .stepOutput _ | .assigned => false

theorem Declaration.checkKind_eq_ok {d : Declaration} {value : Value} {u : Unit} :
    d.checkKind value = .ok u ↔ ∀ kind, d.kind = some kind → value.kind = kind := by
  unfold checkKind
  cases d.kind with
  | none => simp
  | some kind =>
    by_cases h : value.kind = kind
    · simp [h]
    · simp [h]

namespace Scope

variable {argument? output? : String → Option Value} {s s' : Scope} {name other : String}
  {value : Value}

/-- What a scope has on a name that it knows. -/
structure Binding where
  held : Option Value
  declared : Option Declaration
deriving DecidableEq

/-- What reading a variable comes to where a scope decides about it. -/
def Binding.reading (argument? output? : String → Option Value) (name : String) :
    Binding → Except Error Value
  | ⟨some value, _⟩ => .ok value
  | ⟨none, none⟩ => .error (.unboundVariable name)
  | ⟨none, some d⟩ =>
    match d.rule.supply argument? output? with
    | some value => (d.checkKind value).map fun _ => value
    | none => .error (.unboundVariable name)

def binding (s : Scope) (name : String) : Binding := ⟨s.values.get? name, s.declaration? name⟩

def binding? (s : Scope) (name : String) : Option Binding :=
  if s.knows name then some (s.binding name) else none

theorem read_eq (argument? output? : String → Option Value) (s : Scope) (name : String) :
    s.read argument? output? name =
      match s.values.get? name, s.declaration? name with
      | some value, _ => .ok (value, s)
      | none, none => .error (.unboundVariable name)
      | none, some d =>
        match d.rule.supply argument? output? with
        | some value =>
          (d.checkKind value).map fun _ => (value, if d.rule.isLasting then s.keep name value else s)
        | none => .error (.unboundVariable name) := by
  unfold read
  cases s.values.get? name with
  | some value => rfl
  | none =>
    cases s.declaration? name with
    | none => rfl
    | some d =>
      simp only
      cases d.rule with
      | constant value => rfl
      | argument argument =>
        simp only [Rule.supply]
        cases argument? argument <;> rfl
      | stepOutput label =>
        simp only [Rule.supply]
        cases output? label <;> rfl
      | assigned => rfl

theorem read_reading (argument? output? : String → Option Value) (s : Scope) (name : String) :
    (s.read argument? output? name).map Prod.fst =
      (s.binding name).reading argument? output? name := by
  rw [read_eq, binding]
  cases s.values.get? name with
  | some value => rfl
  | none =>
    cases s.declaration? name with
    | none => rfl
    | some d =>
      simp only [Binding.reading]
      cases d.rule.supply argument? output? with
      | none => rfl
      | some value =>
        simp only
        cases d.checkKind value <;> rfl

/-- A value that was read and is not held yet is supplied by the declaration, and of its kind. -/
theorem read_found (h : s.read argument? output? name = .ok (value, s'))
    (hvalue : s.values.get? name = none) :
    ∃ d, s.declaration? name = some d ∧ d.rule.supply argument? output? = some value ∧
      d.checkKind value = .ok () ∧ s' = if d.rule.isLasting then s.keep name value else s := by
  rw [read_eq, hvalue] at h
  cases hd : s.declaration? name with
  | none => simp [hd] at h
  | some d =>
    simp only [hd] at h
    cases hsupply : d.rule.supply argument? output? with
    | none => simp [hsupply] at h
    | some found =>
      simp only [hsupply] at h
      obtain ⟨_, hkind, he⟩ := Except.map_eq_ok h
      cases he
      exact ⟨d, rfl, hsupply, hkind, rfl⟩

theorem read_held (argument? output? : String → Option Value)
    (hvalue : s.values.get? name = some value) :
    s.read argument? output? name = .ok (value, s) := by
  rw [read_eq, hvalue]

/-- What was read is read again, whatever the arguments of the root are by then. -/
theorem read_again {argument?' : String → Option Value}
    (h : s.read argument? output? name = .ok (value, s')) :
    s'.read argument?' output? name = .ok (value, s') := by
  cases hvalue : s.values.get? name with
  | some held =>
    rw [read_held _ _ hvalue] at h
    cases h
    exact read_held _ _ hvalue
  | none =>
    obtain ⟨d, hd, hsupply, hkind, rfl⟩ := read_found h hvalue
    cases hrule : d.rule with
    | constant _ | argument _ =>
      exact read_held _ _ (Dict.get?_insert_self ..)
    | stepOutput label =>
      simp only [Rule.supply, hrule] at hsupply
      simp [Rule.isLasting, read_eq, hvalue, hd, hrule, Rule.supply, hsupply, hkind, Except.map]
    | assigned =>
      simp [Rule.supply, hrule] at hsupply

theorem binding?_read (h : s.read argument? output? name = .ok (value, s')) (hne : other ≠ name) :
    s'.binding? other = s.binding? other := by
  rw [binding?, binding?, knows_read h]
  rcases read_ok h with rfl | ⟨rfl, _⟩
  · rfl
  · simp only [binding, keep, Dict.get?_insert, hne, if_false]
    rfl

theorem binding?_write (h : s.write name value = .ok s') (hne : other ≠ name) :
    s'.binding? other = s.binding? other := by
  rw [write_ok h, binding?, binding?, knows_put]
  simp only [binding, put, Dict.get?_insert, hne, if_false, decide_false, Bool.false_or]
  rfl

/-- A scope but for the values that it holds. -/
def withoutValues (s : Scope) : Scope := { s with values := .empty }

theorem withoutValues_read (h : s.read argument? output? name = .ok (value, s')) :
    s'.withoutValues = s.withoutValues := by
  rcases read_ok h with rfl | ⟨rfl, _⟩
  · rfl
  · rfl

end Scope

namespace Scopes

variable {argument? output? : String → Option Value} {s s' : Scopes} {name other : String}
  {value : Value} {levels levels' : List Scope}

/-- The scope that decides about a name. -/
def deciding? (s : Scopes) (name : String) : Option Scope :=
  s.levels.find? fun scope => scope.knows name

/-- What the scope that decides about a name has on it. -/
def binding? (s : Scopes) (name : String) : Option Scope.Binding :=
  s.levels.findSome? fun scope => scope.binding? name

theorem binding?_eq (s : Scopes) (name : String) :
    s.binding? name = (s.deciding? name).map fun scope => scope.binding name := by
  unfold binding? deciding?
  induction s.levels with
  | nil => rfl
  | cons scope outer ih =>
    rw [List.findSome?_cons, List.find?_cons, Scope.binding?, ih]
    cases scope.knows name <;> rfl

/-- What reading a variable comes to. -/
def reading (argument? : String → Option Value) (s : Scopes) (name : String) :
    Except Error Value :=
  (s.get argument? name).map Prod.fst

theorem readLevels_reading (argument? output? : String → Option Value) (name : String)
    (levels : List Scope) :
    (readLevels argument? output? name levels).map Prod.fst =
      match levels.findSome? fun scope => scope.binding? name with
      | some b => b.reading argument? output? name
      | none => .error (.unboundVariable name) := by
  induction levels with
  | nil => rfl
  | cons scope outer ih =>
    rw [List.findSome?_cons, readLevels, Scope.binding?]
    split
    · simp only
      rw [← Scope.read_reading]
      cases scope.read argument? output? name <;> rfl
    · simp only
      rw [← ih]
      cases readLevels argument? output? name outer <;> rfl

/-- What is read hangs on what the deciding scope has on the name, and on the outputs of steps. -/
theorem reading_eq (argument? : String → Option Value) (s : Scopes) (name : String) :
    s.reading argument? name =
      match s.binding? name with
      | some b => b.reading argument? s.output? name
      | none => .error (.unboundVariable name) := by
  rw [binding?, ← readLevels_reading, reading, Scopes.get]
  cases readLevels argument? s.output? name s.levels <;> rfl

theorem reading_of_get (h : s.get argument? name = .ok (value, s')) :
    s.reading argument? name = .ok value := by
  rw [reading, h]
  rfl

theorem get_of_reading (h : s.reading argument? name = .ok value) :
    ∃ s', s.get argument? name = .ok (value, s') := by
  obtain ⟨⟨_, s'⟩, hg, rfl⟩ := Except.map_eq_ok h
  exact ⟨s', hg⟩

theorem binding?_congr
    (h : s'.levels.map (Scope.binding? · name) = s.levels.map (Scope.binding? · name)) :
    s'.binding? name = s.binding? name :=
  List.findSome?_of_map h

/-! ## Where a variable is found -/

/-- Where the innermost scope that knows a name is, with the innermost of all at 0. -/
def position? (levels : List Scope) (name : String) : Option Nat :=
  levels.findIdx? fun scope => scope.knows name

theorem position?_cons (scope : Scope) (outer : List Scope) (name : String) :
    position? (scope :: outer) name =
      if scope.knows name then some 0 else (position? outer name).map (· + 1) :=
  List.findIdx?_cons

/-- Where a variable is written, if there is a scope at all. -/
def target (levels : List Scope) (name : String) : Nat :=
  (position? levels name).getD (levels.length - 1)

theorem target_cons_cons (scope next : Scope) (rest : List Scope) (name : String) :
    target (scope :: next :: rest) name =
      if scope.knows name then 0 else target (next :: rest) name + 1 := by
  rw [target, target, position?_cons]
  split
  · rfl
  · cases position? (next :: rest) name <;> rfl

variable {scope inner : Scope} {i j : Nat}

/-- The scopes inside of the one where a variable is found do not know it. -/
theorem position?_inside (h : position? levels name = some i) (hj : j < i)
    (hinner : levels[j]? = some inner) : inner.knows name = false := by
  obtain ⟨_, _, hbefore⟩ := List.findIdx?_eq_some_iff_getElem.1 h
  obtain ⟨_, rfl⟩ := List.getElem?_eq_some_iff.1 hinner
  exact Bool.eq_false_iff.2 (hbefore j hj)

theorem target_inside (hj : j < target levels name) (hinner : levels[j]? = some inner) :
    inner.knows name = false := by
  cases h : position? levels name with
  | some i =>
    rw [target, h] at hj
    exact position?_inside h hj hinner
  | none => exact List.findIdx?_eq_none_iff.1 h inner (List.mem_of_getElem? hinner)

/-- A read takes out the innermost scope that knows the name and puts back what comes of it. -/
theorem readLevels_eq (argument? output? : String → Option Value) (name : String)
    (levels : List Scope) :
    readLevels argument? output? name levels =
      match (position? levels name).bind fun i => levels[i]?.map fun scope => (i, scope) with
      | none => .error (.unboundVariable name)
      | some (i, scope) =>
        (scope.read argument? output? name).map fun (value, scope) => (value, levels.set i scope) := by
  induction levels with
  | nil => rfl
  | cons scope outer ih =>
    rw [readLevels, position?_cons, ih]
    split
    · rfl
    · cases position? outer name with
      | none => rfl
      | some i =>
        simp only [Option.map_some, Option.bind_some, List.getElem?_cons_succ]
        cases outer[i]? with
        | none => rfl
        | some found =>
          simp only [Option.map_some]
          cases found.read argument? output? name <;> rfl

theorem writeLevels_eq (name : String) (value : Value) (levels : List Scope) :
    writeLevels name value levels =
      match levels[target levels name]? with
      | none => .ok levels
      | some scope =>
        (scope.write name value).map fun scope => levels.set (target levels name) scope := by
  induction levels with
  | nil => rfl
  | cons scope outer ih =>
    cases outer with
    | nil =>
      have htarget : target [scope] name = 0 := by
        rw [target, position?_cons]
        split <;> rfl
      rw [htarget]
      rfl
    | cons next rest =>
      rw [writeLevels, target_cons_cons, ih]
      · split
        · rfl
        · simp only [List.getElem?_cons_succ]
          cases (next :: rest)[target (next :: rest) name]? with
          | none => rfl
          | some found =>
            simp only
            cases found.write name value <;> rfl
      · exact fun h => List.cons_ne_nil _ _ h

/-- A read replaces the scope in which the variable is found. -/
theorem get_replaces {argument? : String → Option Value}
    (h : s.get argument? name = .ok (value, s')) :
    ∃ i scope scope', position? s.levels name = some i ∧ s.levels[i]? = some scope ∧
      scope.read argument? s.output? name = .ok (value, scope') ∧
      s' = ⟨s.levels.set i scope'⟩ := by
  obtain ⟨⟨_, levels⟩, hr, he⟩ := Except.map_eq_ok h
  cases he
  rw [readLevels_eq] at hr
  split at hr
  · cases hr
  · rename_i i scope hfound
    obtain ⟨⟨_, scope'⟩, hread, he⟩ := Except.map_eq_ok hr
    cases he
    obtain ⟨_, hi, hscope⟩ := Option.bind_eq_some_iff.1 hfound
    obtain ⟨_, hscope, he⟩ := Option.map_eq_some_iff.1 hscope
    cases he
    exact ⟨i, scope, scope', hi, hscope, hread, rfl⟩

/-- A write replaces the scope that it goes to. -/
theorem set_replaces (h : s.set name value = .ok s') :
    s' = s ∨ ∃ scope scope', s.levels[target s.levels name]? = some scope ∧
      scope.write name value = .ok scope' ∧ s' = ⟨s.levels.set (target s.levels name) scope'⟩ := by
  obtain ⟨levels, hw, rfl⟩ := Except.map_eq_ok h
  rw [writeLevels_eq] at hw
  split at hw
  · cases hw
    exact .inl rfl
  · rename_i scope hscope
    obtain ⟨scope', hwrite, rfl⟩ := Except.map_eq_ok hw
    exact .inr ⟨scope, scope', hscope, hwrite, rfl⟩

/-! ## Reading -/

/-- What a read makes no difference to where the variable is found, it makes none to at all. -/
theorem get_map {α : Type} {f : Scope → α} (h : s.get argument? name = .ok (value, s'))
    (hf : ∀ {scope scope' : Scope}, scope.read argument? s.output? name = .ok (value, scope') →
      f scope' = f scope) : s'.levels.map f = s.levels.map f := by
  obtain ⟨i, scope, scope', _, hi, hread, rfl⟩ := get_replaces h
  rw [List.map_set, hf hread]
  exact List.set_of_getElem? (by rw [List.getElem?_map, hi]; rfl)

theorem readLevels_again {argument?' : String → Option Value}
    (h : readLevels argument? output? name levels = .ok (value, levels')) :
    readLevels argument?' output? name levels' = .ok (value, levels') := by
  induction levels generalizing levels' with
  | nil => cases h
  | cons scope outer ih =>
    simp only [readLevels] at h
    split at h
    · rename_i hknown
      obtain ⟨_, hr, he⟩ := Except.map_eq_ok h
      cases he
      simp [readLevels, Scope.knows_read hr, hknown, Scope.read_again hr, Except.map]
    · rename_i hunknown
      obtain ⟨_, hr, he⟩ := Except.map_eq_ok h
      cases he
      simp [readLevels, hunknown, ih hr, Except.map]

theorem get_output? (h : s.get argument? name = .ok (value, s')) : s'.output? = s.output? := by
  obtain ⟨⟨_, levels⟩, hr, he⟩ := Except.map_eq_ok h
  cases he
  exact funext fun label => output?_congr (readLevels_outputs hr) label

theorem get_withoutValues (h : s.get argument? name = .ok (value, s')) :
    s'.levels.map Scope.withoutValues = s.levels.map Scope.withoutValues :=
  get_map h Scope.withoutValues_read

theorem get_binding? (h : s.get argument? name = .ok (value, s')) (hne : other ≠ name) :
    s'.binding? other = s.binding? other :=
  binding?_congr (get_map h fun hread => Scope.binding?_read hread hne)

/-- A variable that was read is read again with the same value, and nothing more is kept. -/
theorem get_again {argument?' : String → Option Value}
    (h : s.get argument? name = .ok (value, s')) : s'.get argument?' name = .ok (value, s') := by
  have houtput := get_output? h
  obtain ⟨⟨_, levels⟩, hr, he⟩ := Except.map_eq_ok h
  cases he
  rw [Scopes.get, houtput, readLevels_again hr]
  rfl

/-- What reading one variable does is of no consequence for reading another. -/
theorem get_reading {argument?' : String → Option Value}
    (h : s.get argument? name = .ok (value, s')) (hne : other ≠ name) :
    s'.reading argument?' other = s.reading argument?' other := by
  rw [reading_eq, reading_eq, get_binding? h hne, get_output? h]

/-! ## Writing -/

theorem set_binding? (h : s.set name value = .ok s') (hne : other ≠ name) :
    s'.binding? other = s.binding? other := by
  obtain rfl | ⟨scope, scope', hi, hwrite, rfl⟩ := set_replaces h
  · rfl
  · refine binding?_congr ?_
    rw [List.map_set, Scope.binding?_write hwrite hne]
    exact List.set_of_getElem? (by rw [List.getElem?_map, hi]; rfl)

theorem set_output? (h : s.set name value = .ok s') : s'.output? = s.output? := by
  obtain ⟨_, hw, rfl⟩ := Except.map_eq_ok h
  exact funext fun label => output?_congr (writeLevels_outputs hw) label

end Scopes

end Conductor
