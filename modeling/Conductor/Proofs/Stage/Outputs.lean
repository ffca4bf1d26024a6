import Conductor.Proofs.Scopes
import Conductor.Proofs.Slots.Tidy
import Conductor.Proofs.Stage.Moves

/-!
The outputs of steps on a stage. A calm move leaves them alone; of what an engine does only the
exit of an instruction records one, in the scope of that engine.
-/

namespace Conductor

namespace Slots

variable {P : Scopes → Prop} {scopes scopes' : Scopes}
  (hget : ∀ {s s' : Scopes} {argument? : String → Option Value} {name : String} {value : Value},
    s.get argument? name = .ok (value, s') → P s → P s')

include hget

/-- What reading a variable preserves is preserved by binding arguments. -/
theorem bindArguments_gets {argument? : String → Option Value} {arguments : List (String × Argument)}
    {bound : Dict String Value} {result : Except Error (Dict String Value)}
    (h : bindArguments argument? arguments bound scopes = (result, scopes')) (hs : P scopes) :
    P scopes' := by
  induction arguments generalizing bound scopes with
  | nil =>
    cases h
    exact hs
  | cons entry rest ih =>
    obtain ⟨name, argument⟩ := entry
    cases argument with
    | value v => exact ih h hs
    | read held =>
      simp only [bindArguments] at h
      split at h
      · rename_i hg
        exact ih h (hget hg hs)
      · cases h
        exact hs

theorem produce_gets {catalog : Catalog} {root : TaskId} {source : Source} {p q : Plan}
    {result : Except Error Handle}
    (h : produce catalog root source scopes p = (result, scopes', q)) (hs : P scopes) :
    P scopes' := by
  cases source with
  | action name arguments =>
    simp only [produce] at h
    split at h
    · cases h
      exact hs
    split at h
    · rename_i hb
      cases h
      exact bindArguments_gets hget hb hs
    · rename_i hb
      split at h <;> cases h <;> exact bindArguments_gets hget hb hs
  | builder name arguments =>
    simp only [produce] at h
    split at h
    · cases h
      exact hs
    split at h
    · rename_i hb
      cases h
      exact bindArguments_gets hget hb hs
    · rename_i hb
      split at h <;> cases h <;> exact bindArguments_gets hget hb hs
  | held name =>
    simp only [produce] at h
    split at h
    · cases h
      exact hs
    · rename_i hg
      split at h <;> cases h <;> exact hget hg hs
  | plan name d =>
    simp only [produce] at h
    cases h
    exact hs

theorem resolve_gets {s s' : Slots} {catalog : Catalog} {key : SlotKey} {source : Source}
    {p q : Plan} {result : Except Error Handle}
    (h : s.resolve catalog key source scopes p = (result, s', scopes', q)) (hs : P scopes) :
    P scopes' := by
  obtain ⟨-, rfl, -⟩ | ⟨_, _, hproduce, -⟩ := resolve_cases h
  · exact hs
  · exact produce_gets hget hproduce hs

end Slots

namespace Stage

variable {lane : Lane} {loud : Bool} {s s' : Stage}

theorem resolve_gets {P : Scopes → Prop}
    (hget : ∀ {s s' : Scopes} {argument? : String → Option Value} {name : String} {value : Value},
      s.get argument? name = .ok (value, s') → P s → P s')
    (s : Stage) (key : SlotKey) (source : Source) (hs : P s.scopes) :
    P (s.resolve key source).2.scopes := by
  obtain ⟨_, _, _, _, _, hr, -, -, he⟩ := s.resolve_cases key source
  rw [he]
  exact Slots.resolve_gets hget hr hs

theorem resolve_outputs (s : Stage) (key : SlotKey) (source : Source) :
    (s.resolve key source).2.scopes.outputs = s.scopes.outputs :=
  resolve_gets (P := fun t => t.outputs = s.scopes.outputs)
    (fun hg h => (Scopes.get_outputs hg).trans h) s key source rfl

theorem retire_scopes (s : Stage) (key : SlotKey) : (s.retire key).scopes = s.scopes := by
  unfold retire
  split <;> rfl

@[simp] theorem retireAll_scopes (s : Stage) : s.retireAll.scopes = s.scopes := rfl

theorem emitOnRoot_scopes (s : Stage) (event : EventName) (payload : Option Value) :
    (s.emitOnRoot event payload).2.scopes = s.scopes := by
  unfold emitOnRoot
  split <;> rfl

theorem Calm.outputs (h : s.Calm lane loud s') : s'.scopes.outputs = s.scopes.outputs := by
  cases h with
  | resolve key source _ => exact resolve_outputs s key source
  | retire key _ => rw [retire_scopes]
  | read hr =>
    obtain ⟨scopes, hg, rfl⟩ := read_ok hr
    exact Scopes.get_outputs hg
  | write hw => exact Scopes.set_outputs hw
  | emit event payload _ => rw [emitOnRoot_scopes]
  | retireLane | await | record => rfl

theorem Calms.outputs (h : s.Calms lane loud s') : s'.scopes.outputs = s.scopes.outputs :=
  h.preserves (P := fun t => t.scopes.outputs = s.scopes.outputs)
    (fun _ _ hm h => hm.outputs.trans h) rfl

/-- What an engine reports changes the outputs of its own scope at most. -/
theorem Reports.outputs {depth : Nat} {noted : Bool} (h : s.Reports lane depth noted s') {i : Nat}
    (hi : i ≠ depth) : s'.scopes.outputs[i]? = s.scopes.outputs[i]? := by
  cases h with
  | calm h => rw [h.outputs]
  | output label value _ hbefore hafter =>
    rw [hafter.outputs, Scopes.recordOutput_outputs, List.getElem?_modify, hbefore.outputs]
    simp [Ne.symm hi]

/-- What reading, writing, putting out and forgetting preserve is preserved by every move. -/
theorem Move.scopes {P : Scopes → Prop}
    (hget : ∀ {s s' : Scopes} {argument? : String → Option Value} {name : String} {value : Value},
      s.get argument? name = .ok (value, s') → P s → P s')
    (hset : ∀ {s s' : Scopes} {name : String} {value : Value},
      s.set name value = .ok s' → P s → P s')
    (houtput : ∀ (s : Scopes) depth label value, P s → P (s.recordOutput depth label value))
    (hreset : ∀ (s : Scopes) depth, P s → P (s.reset depth))
    (h : s.Move lane s') (hs : P s.scopes) : P s'.scopes := by
  cases h with
  | resolve key source _ => exact resolve_gets hget s key source hs
  | retire key _ => rwa [retire_scopes]
  | retireLane | await | record => exact hs
  | read hr =>
    obtain ⟨scopes, hg, rfl⟩ := read_ok hr
    exact hget hg hs
  | write hw => exact hset hw hs
  | output depth label value => exact houtput _ depth label value hs
  | reset depth => exact hreset _ depth hs
  | emit event payload => rwa [emitOnRoot_scopes]

/-- Every scope that was open stays open, and none is opened. -/
theorem Move.depth (h : s.Move lane s') : s'.scopes.depth = s.scopes.depth := by
  refine h.scopes (P := fun t => t.depth = s.scopes.depth) (fun hg hd => ?_) (fun hw hd => ?_)
    (fun t depth label value hd => ?_) (fun t depth hd => ?_) rfl
  · rw [← Scopes.length_outputs, Scopes.get_outputs hg, Scopes.length_outputs, hd]
  · rw [← Scopes.length_outputs, Scopes.set_outputs hw, Scopes.length_outputs, hd]
  · rw [← Scopes.length_outputs, Scopes.recordOutput_outputs, List.length_modify,
      Scopes.length_outputs, hd]
  · rw [← Scopes.length_outputs, Scopes.reset_outputs, List.length_modify, Scopes.length_outputs, hd]

theorem Moves.depth (h : s.Moves lane s') : s'.scopes.depth = s.scopes.depth :=
  h.preserves (P := fun t => t.scopes.depth = s.scopes.depth)
    (fun _ _ hm h => hm.depth.trans h) rfl

end Stage

end Conductor
