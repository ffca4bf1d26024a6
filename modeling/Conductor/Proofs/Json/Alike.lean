import Conductor.Json
import Mathlib.Data.List.Perm.Basic

/-!
Trees that are alike: they differ in the order of the members of their objects only, at any depth. The
readings of records and of forms find in a tree what they find in one that is alike to it, as long as
the members of an object go by distinct names.
-/

namespace Conductor.Json

mutual

/-- The same tree up to the order of members. -/
inductive Alike : Json → Json → Prop where
  | refl (j : Json) : Alike j j
  | array {items items' : List Json} : AlikeItems items items' → Alike (arr items) (arr items')
  | object {members between members' : List (String × Json)} : AlikeMembers members between →
    between.Perm members' → Alike (obj members) (obj members')

inductive AlikeItems : List Json → List Json → Prop where
  | nil : AlikeItems [] []
  | cons {j j' : Json} {rest rest' : List Json} : Alike j j' → AlikeItems rest rest' →
    AlikeItems (j :: rest) (j' :: rest')

/-- Members of the same names in the same order. -/
inductive AlikeMembers : List (String × Json) → List (String × Json) → Prop where
  | nil : AlikeMembers [] []
  | cons (name : String) {j j' : Json} {rest rest' : List (String × Json)} : Alike j j' →
    AlikeMembers rest rest' → AlikeMembers ((name, j) :: rest) ((name, j') :: rest')

end

variable {j j' : Json} {items : List Json} {members members' : List (String × Json)}
  {name tag content : String}

theorem AlikeItems.refl : (items : List Json) → AlikeItems items items
  | [] => .nil
  | j :: rest => .cons (.refl j) (refl rest)

theorem AlikeMembers.refl : (members : List (String × Json)) → AlikeMembers members members
  | [] => .nil
  | (name, j) :: rest => .cons name (.refl j) (refl rest)

theorem AlikeMembers.names : {members members' : List (String × Json)} →
    AlikeMembers members members' → members'.map Prod.fst = members.map Prod.fst
  | _, _, .nil => rfl
  | _, _, .cons name _ hrest => congrArg (name :: ·) hrest.names

theorem Alike.str_eq {s : String} (h : Alike (str s) j) : j = str s := by
  cases h
  rfl

theorem Alike.bool_eq {b : Bool} (h : Alike (bool b) j) : j = bool b := by
  cases h
  rfl

theorem Alike.int_eq {n : Int} (h : Alike (int n) j) : j = int n := by
  cases h
  rfl

theorem Alike.arr_inv (h : Alike (arr items) j) : ∃ items', j = arr items' ∧
    AlikeItems items items' := by
  cases h with
  | refl => exact ⟨items, rfl, .refl items⟩
  | array hitems => exact ⟨_, rfl, hitems⟩

/-! ## Members -/

theorem lookup_cons (name : String) (m : String × Json) (rest : List (String × Json)) :
    lookup name (m :: rest) = if m.1 = name then some m.2 else lookup name rest := by
  by_cases h : m.1 = name <;> simp [lookup, h]

theorem lookup_perm (h : members.Perm members') (hd : (members.map Prod.fst).Nodup)
    (name : String) : lookup name members' = lookup name members := by
  induction h with
  | nil => rfl
  | cons m _ ih =>
    obtain ⟨-, hd⟩ := List.nodup_cons.mp hd
    rw [lookup_cons, lookup_cons, ih hd]
  | swap m m' rest =>
    have hne : m'.1 ≠ m.1 := by
      simp only [List.map_cons, List.nodup_cons, List.mem_cons, not_or] at hd
      exact hd.1.1
    simp only [lookup_cons]
    split <;> split <;> grind
  | trans hp _ ih ih' => rw [ih' ((hp.map Prod.fst).nodup hd), ih hd]

theorem AlikeMembers.lookup : {members members' : List (String × Json)} →
    AlikeMembers members members' → (name : String) →
    (lookup name members = none → lookup name members' = none) ∧
      ∀ j, lookup name members = some j → ∃ j', lookup name members' = some j' ∧ Alike j j'
  | _, _, .nil, name => ⟨id, fun j hj => (nomatch hj)⟩
  | _, _, .cons (j := k) name' halike hrest, name => by
    simp only [lookup_cons]
    split
    · refine ⟨fun hnone => (nomatch hnone), fun j hj => ⟨_, rfl, ?_⟩⟩
      obtain rfl : k = j := Option.some.inj hj
      exact halike
    · exact hrest.lookup name

/-- What is alike to an object with distinct names is an object whose members of the same names are
alike, and which has no others. -/
theorem Alike.obj_inv (h : Alike (obj members) j) (hd : (members.map Prod.fst).Nodup) :
    ∃ members', j = obj members' ∧
      (∀ name, lookup name members = none → lookup name members' = none) ∧
      ∀ name k, lookup name members = some k → ∃ k', lookup name members' = some k' ∧ Alike k k' := by
  cases h with
  | refl => exact ⟨members, rfl, fun _ hnone => hnone, fun _ k hk => ⟨k, hk, .refl k⟩⟩
  | object halike hperm =>
    have hlookup := lookup_perm hperm (halike.names ▸ hd)
    refine ⟨_, rfl, fun name => ?_, fun name => ?_⟩ <;> rw [hlookup name]
    · exact (halike.lookup name).1
    · exact (halike.lookup name).2

/-- What is alike to an object with one member is one, too. -/
theorem Alike.single_inv (h : Alike (obj [(name, j)]) j') :
    ∃ k, j' = obj [(name, k)] ∧ Alike j k := by
  cases h with
  | refl => exact ⟨j, rfl, .refl j⟩
  | object halike hperm =>
    obtain _ | ⟨_, hj, _ | _⟩ := halike
    obtain rfl := List.perm_singleton.mp hperm.symm
    exact ⟨_, rfl, hj⟩

/-- What is alike to a form with a content names the same form, with a content that is alike. -/
theorem Alike.tagged_inv (h : Alike (obj [(tag, str name), (content, j)]) j')
    (hne : tag ≠ content) : ∃ members k, j' = obj members ∧
      lookup tag members = some (str name) ∧ lookup content members = some k ∧ Alike j k := by
  obtain ⟨members, rfl, -, hhit⟩ := h.obj_inv (by simp [hne])
  obtain ⟨_, htag, hstr⟩ := hhit tag (str name) (by simp [lookup_cons])
  obtain ⟨k, hk, halike⟩ := hhit content j (by simp [lookup_cons, hne])
  exact ⟨members, k, rfl, by rw [htag, hstr.str_eq], hk, halike⟩

/-! ## Forms -/

theorem Naming.ofMember?_str (naming : Naming) (name : String) :
    naming.ofMember? (str name) = some name := by
  cases naming <;> rfl

theorem tagged?_obj {naming : Naming} {forms : List String} (content : String)
    (h : lookup tag members = some (str name)) :
    tagged? naming forms tag content (obj members) = some (name, lookup content members) := by
  rw [tagged?, h, Option.bind_some, naming.ofMember?_str, Option.map_some]

theorem lookup_filter (h : name ≠ tag) (members : List (String × Json)) :
    lookup name (members.filter fun m => m.1 ≠ tag) = lookup name members := by
  induction members with
  | nil => rfl
  | cons m rest ih =>
    by_cases hm : m.1 = tag
    · have hne : m.1 ≠ name := fun heq => h (heq.symm.trans hm)
      rw [List.filter_cons_of_neg (by simpa using hm), ih, lookup_cons, if_neg hne]
    · rw [List.filter_cons_of_pos (by simpa using hm), lookup_cons, lookup_cons, ih]

/-- What is left of an object without the name of its form has the other members still. -/
theorem form?_obj (h : lookup tag members = some (str name)) :
    ∃ rest, form? tag (obj members) = some (name, obj rest) ∧
      ∀ other, other ≠ tag → lookup other rest = lookup other members :=
  ⟨_, by rw [form?, h], fun _ hne => lookup_filter hne members⟩

/-! ## Writing and reading -/

/-- Reading is the way back from writing. What was written is restored from any tree that is alike,
so that different things are never written alike, and whatever was read of some tree is restored
from any way to write it. -/
structure Restores {α : Type} (write : α → Json) (read : Json → Option α) : Prop where
  restored : ∀ a j, (write a).Alike j → read j = some a
  distinct : ∀ a b j, (write a).Alike j → (write b).Alike j → a = b
  stable : ∀ j a, read j = some a → ∀ j', (write a).Alike j' → read j' = some a

theorem Restores.of_restored {α : Type} {write : α → Json} {read : Json → Option α}
    (h : ∀ a j, (write a).Alike j → read j = some a) : Restores write read where
  restored := h
  distinct a b j ha hb := Option.some.inj ((h a j ha).symm.trans (h b j hb))
  stable _ a _ j' := h a j'

end Conductor.Json
