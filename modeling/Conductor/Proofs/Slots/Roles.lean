import Conductor.Proofs.Slots.Lanes

/-!
The roles of slots. A task is attached in the role that belongs to the key of its slot. A role is read
from both ends: the prefix and the lane stand before the first slashes, the number of the activation
behind the last hash, and what is left is the step, whatever it is called. So a role tells its key, and
with prefixes that hold no slash it tells the prefix as well.
-/

namespace Conductor

/-- What stands before and behind the first occurrence of a character. -/
theorem append_cons_inj_of_notMem_left {α : Type} {c : α} {front front' back back' : List α}
    (hfront : c ∉ front) (hfront' : c ∉ front')
    (h : front ++ c :: back = front' ++ c :: back') : front = front' ∧ back = back' := by
  rcases List.append_eq_append_iff.mp h with ⟨rest, rfl, hback⟩ | ⟨rest, rfl, hback⟩
  · cases rest with
    | nil => simpa using hback
    | cons d rest =>
      obtain ⟨rfl, -⟩ := List.cons.inj hback
      exact absurd (List.mem_append_right front List.mem_cons_self) hfront'
  · cases rest with
    | nil => simpa using hback.symm
    | cons d rest =>
      obtain ⟨rfl, -⟩ := List.cons.inj hback
      exact absurd (List.mem_append_right front' List.mem_cons_self) hfront

namespace Lane

theorem display_injective {lane other : Lane} (h : lane.display = other.display) :
    lane = other := by
  cases lane <;> cases other <;> first | rfl | exact absurd h (by decide)

theorem slash_notMem_display (lane : Lane) : '/' ∉ lane.display.toList := by
  cases lane <;> decide

end Lane

theorem hash_notMem_toDigits (n : Nat) : '#' ∉ Nat.toDigits 10 n := fun h =>
  absurd (Nat.isDigit_of_mem_toDigits (by omega) (by omega) h) (by decide)

namespace SlotKey

variable {key other : SlotKey}

/-- A role without its prefix and the slash that follows. -/
def tail (key : SlotKey) : List Char :=
  key.lane.display.toList ++ '/' :: (key.step.toList ++ '#' :: Nat.toDigits 10 key.activation)

theorem toList_role (key : SlotKey) (rolePrefix : String) :
    (key.role rolePrefix).toList = rolePrefix.toList ++ '/' :: key.tail := by
  simp [role, tail]

theorem tail_injective (h : key.tail = other.tail) : key = other := by
  obtain ⟨hlane, hrest⟩ := append_cons_inj_of_notMem_left (Lane.slash_notMem_display key.lane)
    (Lane.slash_notMem_display other.lane) h
  -- The step may hold hashes too, so the number is cut off from behind.
  have hreversed := congrArg List.reverse hrest
  simp only [List.reverse_append, List.reverse_cons, List.append_assoc, List.singleton_append]
    at hreversed
  obtain ⟨hnumber, hstep⟩ := append_cons_inj_of_notMem_left
    (by simpa using hash_notMem_toDigits key.activation)
    (by simpa using hash_notMem_toDigits other.activation) hreversed
  have hactivation := toDigits_injective (List.reverse_inj.mp hnumber)
  rw [List.reverse_inj, String.toList_inj] at hstep
  cases key
  cases other
  congr
  exact Lane.display_injective (String.toList_inj.mp hlane)

/-- Slots of different keys have different roles. -/
theorem role_injective {rolePrefix : String} (h : key.role rolePrefix = other.role rolePrefix) :
    key = other := by
  have hlist := congrArg String.toList h
  rw [toList_role, toList_role, List.append_cancel_left_eq] at hlist
  exact tail_injective (List.cons.inj hlist).2

theorem role_inj {first second : String} (hfirst : '/' ∉ first.toList)
    (hsecond : '/' ∉ second.toList) :
    key.role first = other.role second ↔ first = second ∧ key = other := by
  constructor
  · intro h
    have hlist := congrArg String.toList h
    rw [toList_role, toList_role] at hlist
    obtain ⟨hlabel, htail⟩ := append_cons_inj_of_notMem_left hfirst hsecond hlist
    exact ⟨String.toList_inj.mp hlabel, tail_injective htail⟩
  · rintro ⟨rfl, rfl⟩
    rfl

theorem role_ne (h : key.lane ≠ other.lane) (rolePrefix : String) :
    key.role rolePrefix ≠ other.role rolePrefix :=
  fun he => h (congrArg lane (role_injective he))

end SlotKey

namespace Slots

/-- Every filled slot has the role of its key. -/
def Roled (s : Slots) : Prop := ∀ slot ∈ s.live, slot.role = slot.key.role s.rolePrefix

/-- Roles are given out as before: the prefix is the same, and a slot that was filled has the role
of its key. -/
structure SameRoles (s s' : Slots) : Prop where
  rolePrefix : s'.rolePrefix = s.rolePrefix
  filled : ∀ slot ∈ s'.live, slot ∈ s.live ∨ slot.role = slot.key.role s.rolePrefix

theorem Roled.of_same {s s' : Slots} (h : s.Roled) (hs : s.SameRoles s') : s'.Roled := by
  intro slot hslot
  rw [hs.rolePrefix]
  rcases hs.filled slot hslot with hslot | hrole
  · exact h slot hslot
  · exact hrole

namespace SameRoles

theorem refl (s : Slots) : s.SameRoles s := ⟨rfl, fun _ h => .inl h⟩

theorem trans {s t u : Slots} (h : s.SameRoles t) (h' : t.SameRoles u) : s.SameRoles u := by
  refine ⟨h'.rolePrefix.trans h.rolePrefix, fun slot hslot => ?_⟩
  rcases h'.filled slot hslot with hslot | hrole
  · exact h.filled slot hslot
  · rw [h.rolePrefix] at hrole
    exact .inr hrole

theorem of_subset {s s' : Slots} (hp : s'.rolePrefix = s.rolePrefix) (hl : s'.live ⊆ s.live) :
    s.SameRoles s' :=
  ⟨hp, fun _ h => .inl (hl h)⟩

theorem resolve (s : Slots) (catalog : Catalog) (key : SlotKey) (source : Source)
    (scopes : Scopes) (p : Plan) : s.SameRoles (s.resolve catalog key source scopes p).2.1 := by
  rcases hr : s.resolve catalog key source scopes p with ⟨_, t, _, _⟩
  obtain ⟨rfl, -, -⟩ | ⟨_, _, -, ⟨rfl, -⟩ | ⟨handle, -, rfl⟩⟩ := resolve_cases hr
  · exact .refl t
  · exact .refl t
  · refine ⟨rfl, fun slot hslot => ?_⟩
    rcases List.mem_append.mp hslot with hslot | hslot
    · exact .inl hslot
    · obtain rfl := List.mem_singleton.mp hslot
      exact .inr rfl

theorem retire (s : Slots) (key : SlotKey) (p : Plan) : s.SameRoles (s.retire key p).2.1 := by
  unfold Slots.retire
  split
  · exact .refl s
  · exact of_subset rfl List.eraseP_subset

theorem releaseAll (slots : List Slot) (s : Slots) (p : Plan) :
    s.SameRoles (s.releaseAll slots p).2.1 := by
  induction slots generalizing s p with
  | nil => exact .refl s
  | cons slot rest ih =>
    have herased : s.SameRoles { s with live := s.live.erase slot } :=
      of_subset rfl List.erase_subset
    exact herased.trans (ih ..)

end SameRoles

end Slots

/-- Every move of an engine keeps the roles of the slots. -/
theorem Stage.Moves.sameRoles {lane : Lane} {s s' : Stage} (h : s.Moves lane s') :
    s.slots.SameRoles s'.slots := by
  refine h.preserves (P := fun t => s.slots.SameRoles t.slots) (fun t t' hm ht => ht.trans ?_)
    (.refl _)
  cases hm with
  | resolve key source _ =>
    rw [resolve_slots]
    exact .resolve ..
  | retire key _ =>
    rw [retire_slots]
    exact .retire ..
  | retireLane => exact .releaseAll ..
  | emit event payload =>
    unfold emitOnRoot
    split <;> exact .refl _
  | read hr =>
    obtain ⟨scopes, _, rfl⟩ := read_ok hr
    exact .refl _
  | write | output | reset | await | record => exact .refl _

theorem Stage.Moves.roled {lane : Lane} {s s' : Stage} (h : s.Moves lane s')
    (hs : s.slots.Roled) : s'.slots.Roled :=
  hs.of_same h.sameRoles

end Conductor
