import Conductor.Proofs.Dict
import Conductor.Scopes

/-!
Scopes under the operations on them. Reading and writing variables leaves the outputs of steps
alone; an output is recorded in one scope, and opening or closing a scope leaves the outer ones as
they are. Reading a variable changes the value of none, although it may be kept.
-/

namespace Conductor

theorem Except.map_eq_ok {ε α β : Type} {f : α → β} {x : Except ε α} {b : β}
    (h : x.map f = .ok b) : ∃ a, x = .ok a ∧ f a = b := by
  cases x with
  | error e => cases h
  | ok a => exact ⟨a, rfl, Except.ok.inj h⟩

theorem Except.map_eq_error {ε α β : Type} {f : α → β} {x : Except ε α} {e : ε}
    (h : x.map f = .error e) : x = .error e := by
  cases x with
  | error _ => exact congrArg Except.error (Except.error.inj h)
  | ok _ => cases h

namespace Scope

variable {argument? output? : String → Option Value} {s s' : Scope} {name other : String}
  {value : Value}

/-- Reading a variable keeps the value that was found, if anything. -/
theorem read_ok (h : s.read argument? output? name = .ok (value, s')) :
    s' = s ∨ s' = s.keep name value ∧ s.values.get? name = none ∧
      (s.declaration? name).isSome = true := by
  unfold read at h
  split at h
  · cases h
    exact .inl rfl
  · cases h
  · rename_i d hv hd
    have hdeclared : (s.declaration? name).isSome = true := by simp [hd]
    split at h
    · obtain ⟨_, _, he⟩ := Except.map_eq_ok h
      cases he
      exact .inr ⟨rfl, hv, hdeclared⟩
    · split at h
      · obtain ⟨_, _, he⟩ := Except.map_eq_ok h
        cases he
        exact .inr ⟨rfl, hv, hdeclared⟩
      · cases h
    · split at h
      · obtain ⟨_, _, he⟩ := Except.map_eq_ok h
        cases he
        exact .inl rfl
      · cases h
    · cases h

theorem read_outputs (h : s.read argument? output? name = .ok (value, s')) :
    s'.outputs = s.outputs := by
  rcases read_ok h with rfl | ⟨rfl, _⟩
  · rfl
  · rfl

theorem write_ok (h : s.write name value = .ok s') : s' = s.put name value := by
  unfold write at h
  split at h
  · obtain ⟨_, _, rfl⟩ := Except.map_eq_ok h
    rfl
  · cases h
    rfl

theorem write_outputs (h : s.write name value = .ok s') : s'.outputs = s.outputs := by
  rw [write_ok h]
  rfl

/-- The value that reading a variable finds. -/
def look (argument? output? : String → Option Value) (s : Scope) (name : String) : Option Value :=
  (s.read argument? output? name).toOption.map Prod.fst

theorem look_of_values (argument? output? : String → Option Value)
    (h : s.values.get? name = some value) : s.look argument? output? name = some value := by
  unfold look read
  simp only [h]
  rfl

theorem look_of_read (h : s.read argument? output? name = .ok (value, s')) :
    s.look argument? output? name = some value := by
  rw [look, h]
  rfl

/-- A value that was kept is found again, and no other value is affected. -/
theorem look_read (h : s.read argument? output? name = .ok (value, s')) (other : String) :
    s'.look argument? output? other = s.look argument? output? other := by
  rcases read_ok h with rfl | ⟨rfl, _⟩
  · rfl
  by_cases hn : other = name
  · rw [hn, look_of_read h]
    exact look_of_values _ _ (Dict.get?_insert_self ..)
  · have hv : (s.keep name value).values.get? other = s.values.get? other := by
      simp only [keep, Dict.get?_insert, hn, if_false]
    have hd : (s.keep name value).declaration? other = s.declaration? other := rfl
    unfold look read
    rw [hv, hd]
    split
    · rfl
    · rfl
    · split
      · simp only [Except.toOption]
        cases Declaration.checkKind _ _ <;> rfl
      · split
        · cases Declaration.checkKind _ _ <;> rfl
        · rfl
      · split
        · cases Declaration.checkKind _ _ <;> rfl
        · rfl
      · rfl

/-- Reading a variable makes no other name known. -/
theorem knows_read (h : s.read argument? output? name = .ok (value, s')) (other : String) :
    s'.knows other = s.knows other := by
  rcases read_ok h with rfl | ⟨rfl, _, hd⟩
  · rfl
  by_cases hn : other = name
  · have hd' : ((s.keep name value).declaration? name).isSome = true := hd
    rw [hn, knows, knows, hd, hd']
    rfl
  · have hd' : (s.keep name value).declaration? other = s.declaration? other := rfl
    rw [knows, knows, hd', Dict.contains_eq_isSome, Dict.contains_eq_isSome]
    simp only [keep, Dict.get?_insert, hn, if_false]

/-- What is found without any argument of the root is found with whatever arguments. -/
theorem look_of_closed (h : s.look (fun _ => none) output? name = some value) :
    s.look argument? output? name = some value := by
  revert h
  unfold look read
  split
  · exact id
  · exact id
  · split
    · exact id
    · intro h
      cases h
    · exact id
    · exact id

end Scope

namespace Scopes

variable {argument? output? : String → Option Value} {s s' : Scopes} {name : String}
  {value : Value} {levels levels' : List Scope}

/-! ## Outputs -/

/-- What the steps put out, scope by scope, the outermost first. -/
def outputs (s : Scopes) : List (Dict String Value) := (s.levels.map Scope.outputs).reverse

/-- What a step put out in the scope at a depth. -/
def outputAt? (s : Scopes) (depth : Nat) (label : String) : Option Value :=
  s.outputs[depth]?.bind fun held => held.get? label

theorem length_outputs (s : Scopes) : s.outputs.length = s.depth := by
  simp [outputs, depth]

theorem readLevels_outputs (h : readLevels argument? output? name levels = .ok (value, levels')) :
    levels'.map Scope.outputs = levels.map Scope.outputs := by
  induction levels generalizing levels' with
  | nil => cases h
  | cons scope outer ih =>
    simp only [readLevels] at h
    split at h
    · obtain ⟨_, hr, he⟩ := Except.map_eq_ok h
      cases he
      simp [Scope.read_outputs hr]
    · obtain ⟨_, hr, he⟩ := Except.map_eq_ok h
      cases he
      simp [ih hr]

theorem get_outputs (h : s.get argument? name = .ok (value, s')) : s'.outputs = s.outputs := by
  obtain ⟨_, hr, he⟩ := Except.map_eq_ok h
  cases he
  simp [outputs, readLevels_outputs hr]

theorem writeLevels_outputs (h : writeLevels name value levels = .ok levels') :
    levels'.map Scope.outputs = levels.map Scope.outputs := by
  induction levels generalizing levels' with
  | nil =>
    cases h
    rfl
  | cons scope outer ih =>
    cases outer with
    | nil =>
      obtain ⟨_, hw, rfl⟩ := Except.map_eq_ok h
      simp [Scope.write_outputs hw]
    | cons next rest =>
      simp only [writeLevels] at h
      split at h
      · obtain ⟨_, hw, rfl⟩ := Except.map_eq_ok h
        simp [Scope.write_outputs hw]
      · obtain ⟨_, hw, rfl⟩ := Except.map_eq_ok h
        rw [List.map_cons, ih hw]
        rfl

theorem set_outputs (h : s.set name value = .ok s') : s'.outputs = s.outputs := by
  obtain ⟨_, hw, rfl⟩ := Except.map_eq_ok h
  simp [outputs, writeLevels_outputs hw]

theorem outputs_getElem? {depth : Nat} (h : depth < s.depth) :
    s.outputs[depth]? = s.levels[s.depth - 1 - depth]?.map Scope.outputs := by
  rw [outputs, List.getElem?_reverse (by simpa [Scopes.depth] using h), List.getElem?_map,
    List.length_map]
  rfl

/-- Changing one scope changes what its steps put out, as the change has it. -/
theorem outputs_modifyAt (s : Scopes) (depth : Nat) {f : Scope → Scope}
    {g : Dict String Value → Dict String Value} (hf : ∀ scope, (f scope).outputs = g scope.outputs) :
    (s.modifyAt depth f).outputs = s.outputs.modify depth g := by
  unfold modifyAt
  split
  · rename_i hd
    have hlength : Scopes.depth ⟨s.levels.modify (s.depth - 1 - depth) f⟩ = s.depth := by
      simp [Scopes.depth]
    refine List.ext_getElem? fun i => ?_
    by_cases hi : i < s.depth
    · rw [outputs_getElem? (hlength.symm ▸ hi), hlength, List.getElem?_modify, List.getElem?_modify,
        outputs_getElem? hi]
      have hiff : s.depth - 1 - depth = s.depth - 1 - i ↔ depth = i := by omega
      simp only [hiff]
      cases s.levels[s.depth - 1 - i]? with
      | none => rfl
      | some scope =>
        by_cases he : depth = i
        · simp [he, hf]
        · simp [he]
    · rw [List.getElem?_eq_none, List.getElem?_eq_none]
      · rw [List.length_modify, length_outputs]
        omega
      · rw [length_outputs, hlength]
        omega
  · rename_i hd
    have hshort : s.outputs.length ≤ depth := by
      rw [length_outputs]
      omega
    exact (List.modify_eq_self hshort).symm

theorem recordOutput_outputs (s : Scopes) (depth : Nat) (label : String) (value : Value) :
    (s.recordOutput depth label value).outputs =
      s.outputs.modify depth fun held => held.insert label value :=
  outputs_modifyAt s depth fun _ => rfl

theorem reset_outputs (s : Scopes) (depth : Nat) :
    (s.reset depth).outputs = s.outputs.modify depth fun _ => .empty :=
  outputs_modifyAt s depth fun _ => rfl

theorem push_outputs (s : Scopes) (owner : String) (declarations : List Declaration) :
    (s.push owner declarations).outputs = s.outputs ++ [.empty] := by
  simp [push, outputs, Scope.new]

theorem pop_outputs (s : Scopes) :
    s.pop.2.outputs = if 2 ≤ s.depth then s.outputs.dropLast else s.outputs := by
  unfold pop
  split
  · rename_i hl
    simp [outputs, Scopes.depth, hl]
  · rename_i hl
    have hd : s.depth < 2 := by
      unfold Scopes.depth
      match hlevels : s.levels with
      | [] => simp
      | [_] => simp
      | inner :: outer :: rest => exact absurd hlevels (hl inner outer rest)
    rw [if_neg (by omega)]

theorem pop_depth (s : Scopes) : s.pop.2.depth = if 2 ≤ s.depth then s.depth - 1 else s.depth := by
  rw [← length_outputs, pop_outputs]
  split
  · rw [List.length_dropLast, length_outputs]
  · exact length_outputs s

theorem outputAt?_recordOutput (s : Scopes) {depth : Nat} (h : depth < s.depth) (label : String)
    (value : Value) :
    (s.recordOutput depth label value).outputAt? depth label = some value := by
  have hd : depth < s.outputs.length := by rwa [length_outputs]
  simp [outputAt?, recordOutput_outputs, hd]

/-- Where the scopes from the outermost to one at a depth have the same outputs. -/
theorem outputAt?_congr {depth : Nat} (h : s'.outputs[depth]? = s.outputs[depth]?) (label : String) :
    s'.outputAt? depth label = s.outputAt? depth label := by
  rw [outputAt?, h]
  rfl

/-! ## Values -/

/-- The value that a name has for whoever knows the arguments of the root. -/
def look (argument? : String → Option Value) (s : Scopes) (name : String) : Option Value :=
  (s.get argument? name).toOption.map Prod.fst

def lookLevels (argument? output? : String → Option Value) (name : String) (levels : List Scope) :
    Option Value :=
  (readLevels argument? output? name levels).toOption.map Prod.fst

theorem lookLevels_cons (argument? output? : String → Option Value) (name : String)
    (scope : Scope) (outer : List Scope) :
    lookLevels argument? output? name (scope :: outer) =
      if scope.knows name then scope.look argument? output? name
      else lookLevels argument? output? name outer := by
  unfold lookLevels Scope.look
  simp only [readLevels]
  split
  · cases scope.read argument? output? name <;> rfl
  · cases readLevels argument? output? name outer <;> rfl

theorem look_eq (argument? : String → Option Value) (s : Scopes) (name : String) :
    s.look argument? name = lookLevels argument? s.output? name s.levels := by
  unfold look lookLevels get
  cases readLevels argument? s.output? name s.levels <;> rfl

theorem lookLevels_read (h : readLevels argument? output? name levels = .ok (value, levels'))
    (other : String) :
    lookLevels argument? output? other levels' = lookLevels argument? output? other levels := by
  induction levels generalizing levels' with
  | nil => cases h
  | cons scope outer ih =>
    simp only [readLevels] at h
    split at h
    · obtain ⟨_, hr, he⟩ := Except.map_eq_ok h
      cases he
      simp only [lookLevels_cons, Scope.look_read hr, Scope.knows_read hr]
    · obtain ⟨_, hr, he⟩ := Except.map_eq_ok h
      cases he
      simp only [lookLevels_cons, ih hr]

theorem lookLevels_of_closed
    (h : lookLevels (fun _ => none) output? name levels = some value) :
    lookLevels argument? output? name levels = some value := by
  induction levels with
  | nil => cases h
  | cons scope outer ih =>
    rw [lookLevels_cons] at h ⊢
    split at h
    · rename_i hknown
      rw [if_pos hknown]
      exact Scope.look_of_closed h
    · rename_i hunknown
      rw [if_neg hunknown]
      exact ih h

theorem output?_congr (h : s'.levels.map Scope.outputs = s.levels.map Scope.outputs)
    (label : String) : s'.output? label = s.output? label := by
  have hmap : ∀ s : Scopes, s.output? label =
      (s.levels.map Scope.outputs).findSome? fun held => held.get? label := by
    intro s
    rw [List.findSome?_map]
    rfl
  rw [hmap, hmap, h]

/-- Reading a variable changes the value of none. -/
theorem look_get (h : s.get argument? name = .ok (value, s')) (other : String) :
    s'.look argument? other = s.look argument? other := by
  obtain ⟨⟨_, levels⟩, hr, he⟩ := Except.map_eq_ok h
  cases he
  have houtput : Scopes.output? ⟨levels⟩ = s.output? :=
    funext fun label => output?_congr (readLevels_outputs hr) label
  rw [look_eq, look_eq, houtput]
  exact lookLevels_read hr other

/-- The value that a name has whatever the arguments of the root are. -/
def settled? (s : Scopes) (name : String) : Option Value := s.look (fun _ => none) name

theorem look_of_settled (argument? : String → Option Value) (h : s.settled? name = some value) :
    s.look argument? name = some value := by
  rw [settled?, look_eq] at h
  rw [look_eq]
  exact lookLevels_of_closed h

end Scopes

end Conductor
