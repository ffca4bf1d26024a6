import Conductor.Proofs.Plan.Progress
import Mathlib.Data.List.Chain
import Mathlib.Data.List.Nodup
import Mathlib.Data.List.Perm.Subperm

/-!
Ancestries. From a task one climbs to a parent, from there to a parent of it, and so on until there is
none or one comes up again. Attachments may lead round in circles and a task may have several parents;
still every step but the last meets a parent that was not met before, and a plan has finitely many. So
the climb ends, and the bound on its steps is never what ends it.
-/

namespace Conductor

namespace Plan

/-- A task is attached under a parent, in whatever role. -/
def Under (p : Plan) (task parent : TaskId) : Prop := ∃ a ∈ p.childrenOf parent, a.child.id = task

/-- The climb from a task, with the parents that were met before it and those that are met when it
is over. -/
inductive Climbs (p : Plan) : List TaskId → TaskId → List TaskId → Prop where
  | top {met : List TaskId} {task : TaskId} : p.parent? task = none → Climbs p met task met
  | again {met : List TaskId} {task parent : TaskId} : p.parent? task = some parent →
    parent ∈ met → Climbs p met task met
  | up {met all : List TaskId} {task parent : TaskId} : p.parent? task = some parent →
    parent ∉ met → Climbs p (met ++ [parent]) parent all → Climbs p met task all

variable {p : Plan} {task parent : TaskId} {met all : List TaskId}

/-! ## Parents -/

theorem mem_keys_of_parent? (h : p.parent? task = some parent) : parent ∈ p.children.keys := by
  obtain ⟨e, he, rfl⟩ := Option.map_eq_some_iff.mp h
  exact List.mem_map_of_mem (List.mem_of_find?_eq_some he)

/-- The parent that is chosen is one of the task. -/
theorem under_of_parent? (h : p.parent? task = some parent) : p.Under task parent := by
  obtain ⟨⟨parent, attachments⟩, he, rfl⟩ := Option.map_eq_some_iff.mp h
  have hget : p.children.get? parent = some attachments :=
    Dict.get?_eq_some_iff.mpr (List.mem_of_find?_eq_some he)
  have hany : attachments.any (fun a => a.child.id == task) = true := by
    simpa using List.find?_some he
  obtain ⟨a, ha, hid⟩ := List.any_eq_true.mp hany
  refine ⟨a, ?_, by simpa using hid⟩
  rw [childrenOf, hget]
  exact ha

/-- None is chosen only if there is none. -/
theorem not_under_of_parent? (h : p.parent? task = none) (parent : TaskId) :
    ¬ p.Under task parent := by
  rintro ⟨a, ha, hid⟩
  unfold childrenOf at ha
  cases hget : p.children.get? parent with
  | none => simp [hget] at ha
  | some attachments =>
    rw [hget] at ha
    have hnone := List.find?_eq_none.mp (Option.map_eq_none_iff.mp h) (parent, attachments)
      (Dict.get?_eq_some_iff.mp hget)
    exact hnone (List.any_eq_true.mpr ⟨a, ha, by simpa using hid⟩)

/-! ## The climb -/

theorem nodup_meeting (hmet : met.Nodup) (hnew : parent ∉ met) : (met ++ [parent]).Nodup := by
  rw [← List.concat_eq_append]
  exact hmet.concat hnew

namespace Climbs

theorem unique {other : List TaskId} (h : p.Climbs met task all) (h' : p.Climbs met task other) :
    other = all := by
  induction h with
  | top hnone =>
    cases h' with
    | top => rfl
    | again hparent | up hparent => cases hnone.symm.trans hparent
  | again hparent hmet =>
    cases h' with
    | top hnone => cases hnone.symm.trans hparent
    | again => rfl
    | up hparent' hnew =>
      obtain rfl := Option.some.inj (hparent.symm.trans hparent')
      exact absurd hmet hnew
  | up hparent hnew _ ih =>
    cases h' with
    | top hnone => cases hnone.symm.trans hparent
    | again hparent' hmet =>
      obtain rfl := Option.some.inj (hparent.symm.trans hparent')
      exact absurd hmet hnew
    | up hparent' _ hrest =>
      obtain rfl := Option.some.inj (hparent.symm.trans hparent')
      exact ih hrest

theorem nodup (h : p.Climbs met task all) (hmet : met.Nodup) : all.Nodup := by
  induction h with
  | top | again => exact hmet
  | up _ hnew _ ih => exact ih (nodup_meeting hmet hnew)

/-- What is met on the way is a path of chosen parents, and above its end there is nobody or
somebody who was met. -/
theorem path (h : p.Climbs met task all) :
    ∃ way, all = met ++ way ∧
      (task :: way).IsChain (fun below above => p.parent? below = some above) ∧
      ∀ parent, p.parent? (way.getLastD task) = some parent → parent ∈ all := by
  induction h with
  | top hnone =>
    refine ⟨[], (List.append_nil _).symm, .singleton _, fun parent hparent => ?_⟩
    cases hnone.symm.trans hparent
  | again hparent hmet =>
    refine ⟨[], (List.append_nil _).symm, .singleton _, fun parent hparent' => ?_⟩
    obtain rfl := Option.some.inj (hparent.symm.trans hparent')
    exact hmet
  | @up met all task parent hparent _ _ ih =>
    obtain ⟨way, hall, hway, hlast⟩ := ih
    refine ⟨parent :: way, ?_, List.isChain_cons_cons.mpr ⟨hparent, hway⟩, ?_⟩
    · rw [hall, List.append_assoc, List.singleton_append]
    · rw [List.getLastD_cons]
      exact hlast

end Climbs

/-- As long as there are no more parents to be met than steps are left, the steps suffice. -/
theorem climb_climbs (steps : Nat) (hmet : met.Nodup) (hparents : met ⊆ p.children.keys)
    (hsteps : p.children.size ≤ met.length + steps) :
    p.Climbs met task (p.climb steps met task) := by
  induction steps generalizing met task with
  | zero =>
    have hall : p.children.keys ⊆ met := by
      have hlength : p.children.keys.length ≤ met.length := by
        simpa [Dict.keys, Dict.size] using hsteps
      exact ((hmet.subperm hparents).perm_of_length_le hlength).symm.subset
    unfold climb
    cases hparent : p.parent? task with
    | none => exact .top hparent
    | some parent => exact .again hparent (hall (mem_keys_of_parent? hparent))
  | succ steps ih =>
    unfold climb
    split
    · rename_i hnone
      exact .top hnone
    · rename_i parent hparent
      split
      · rename_i hmem
        exact .again hparent hmem
      · rename_i hnew
        refine .up hparent hnew (ih ?_ ?_ ?_)
        · exact nodup_meeting hmet hnew
        · exact List.append_subset.mpr
            ⟨hparents, List.cons_subset.mpr ⟨mem_keys_of_parent? hparent, List.nil_subset _⟩⟩
        · rw [List.length_append, List.length_singleton]
          omega

theorem ancestry_climbs (p : Plan) (task : TaskId) : p.Climbs [] task (p.ancestry task) :=
  climb_climbs _ .nil (List.nil_subset _) (by simp)

/-- Whatever is attached to what, the climb from a task ends, with its ancestry. Nobody is in an
ancestry twice; it begins with a parent of the task, and each that follows is a parent of the one
before; and it ends where there is no parent, or where the one that is chosen was met already. -/
theorem ancestry_ends (p : Plan) (task : TaskId) :
    let ancestry := p.ancestry task
    let last := ancestry.getLastD task
    (∀ all, p.Climbs [] task all ↔ all = ancestry) ∧
    ancestry.Nodup ∧
    (task :: ancestry).IsChain
      (fun below above => p.parent? below = some above ∧ p.Under below above) ∧
    ((∀ parent, ¬ p.Under last parent) ∨ ∃ parent ∈ ancestry, p.parent? last = some parent) := by
  intro ancestry last
  have hclimbs : p.Climbs [] task ancestry := p.ancestry_climbs task
  obtain ⟨way, hall, hway, hlast⟩ := hclimbs.path
  obtain rfl : way = ancestry := hall.symm
  refine ⟨fun all => ⟨hclimbs.unique, fun h => h ▸ hclimbs⟩, hclimbs.nodup .nil,
    hway.imp fun _ _ h => ⟨h, under_of_parent? h⟩, ?_⟩
  cases hparent : p.parent? last with
  | none => exact .inl fun parent => not_under_of_parent? hparent parent
  | some parent => exact .inr ⟨parent, hlast parent hparent, rfl⟩

/-- Of two tasks under each other, each is above itself. -/
example :
    let first : Handle := ⟨⟨"task-1"⟩, "Goto"⟩
    let second : Handle := ⟨⟨"task-2"⟩, "Goto"⟩
    let children := (Dict.empty.insert first.id [⟨second, "go"⟩]).insert second.id [⟨first, "go"⟩]
    { empty with children }.ancestry first.id = [second.id, first.id] := by
  decide

end Plan

end Conductor
