import Conductor.Proofs.Plan.Progress
import Conductor.Slots

/-!
Slots keep their plan tidy. The children attached under the root are the tasks of the filled
slots, in the order of filling, and a task that was put into a slot and is in none any longer has
ended. Filling and emptying slots preserves this, and so does whatever happens to the plan's tasks
meanwhile.
-/

namespace Conductor

def Slot.attachment (c : Slot) : Plan.Attachment := ⟨c.handle, c.role⟩

namespace Slots

/-- The children that the plan should have under the root. -/
def attachments (s : Slots) : List Plan.Attachment := s.live.map Slot.attachment

/-- Slots under a root that agree with their plan. -/
structure Tidy (root : TaskId) (s : Slots) (p : Plan) : Prop where
  rooted : s.root.id = root
  numbered : p.Numbered
  attached : p.childrenOf root = s.attachments
  /-- No two filled slots agree in their task and their role. -/
  distinct : s.live.Pairwise fun c d => d.attachment.isOf c.handle.id c.role = false
  known : ∀ h ∈ s.filled, (p.task? h.id).isSome = true
  held : ∀ c ∈ s.live, c.handle ∈ s.filled
  ended : ∀ h ∈ s.filled, s.isChild h.id = false → (p.state h.id).isTerminal = true

/-- A slot is found in its place, and emptying it leaves the others in theirs. -/
theorem slot?_split {s : Slots} {key : SlotKey} {slot : Slot} (h : s.slot? key = some slot) :
    slot.key = key ∧ ∃ l₁ l₂, s.live = l₁ ++ slot :: l₂ ∧
      s.live.eraseP (fun c => c.key == key) = l₁ ++ l₂ := by
  obtain ⟨hkey, l₁, l₂, hlive, hbefore⟩ := List.find?_eq_some_iff_append.mp h
  refine ⟨by simpa using hkey, l₁, l₂, hlive, ?_⟩
  rw [hlive, List.eraseP_append_right,
    List.eraseP_cons_of_pos (p := fun c : Slot => c.key == key) hkey]
  intro c hc
  simpa using hbefore c hc

/-- Slots that differ in their task or their role differ. -/
theorem nodup_of_distinct {slots : List Slot}
    (h : slots.Pairwise fun c d => d.attachment.isOf c.handle.id c.role = false) :
    slots.Nodup := by
  refine h.imp ?_
  rintro c d hcd rfl
  simp [Plan.isOf_eq_false_iff, Slot.attachment] at hcd

theorem tidy_new {root : Handle} {p : Plan} (rolePrefix : String) (hp : p.Numbered)
    (hc : p.childrenOf root.id = []) : (Slots.new root rolePrefix).Tidy root.id p where
  rooted := rfl
  numbered := hp
  attached := hc
  distinct := .nil
  known := by simp [Slots.new]
  held := by simp [Slots.new]
  ended := by simp [Slots.new]

theorem make_plan {p q : Plan} {d : Description} {inWords : ProviderError → Unresolvable}
    {result : Except Error Handle} (h : make p d inWords = (result, q)) :
    q = p ∨ ∃ d task, p.instantiate d = .ok (task, q) := by
  unfold make at h
  split at h
  · rename_i hi
    cases h
    exact .inr ⟨_, _, hi⟩
  · cases h
    exact .inl rfl

/-- To obtain a task is to leave the plan alone, to make a task there or to put a builder to
work. -/
theorem produce_plan {p q : Plan} {catalog : Catalog} {root : TaskId} {source : Source}
    {scopes scopes' : Scopes} {result : Except Error Handle}
    (h : produce catalog root source scopes p = (result, scopes', q)) :
    q = p ∨ (∃ d task, p.instantiate d = .ok (task, q)) ∨
      ∃ name build arguments, catalog.builders.get? name = some build ∧
        q = (build arguments p).2 := by
  cases source with
  | action name arguments =>
    simp only [produce] at h
    split at h
    · cases h
      exact .inl rfl
    split at h
    · cases h
      exact .inl rfl
    split at h
    · cases h
      exact .inl rfl
    · cases h
      exact (make_plan rfl).imp_right .inl
  | builder name arguments =>
    simp only [produce] at h
    split at h
    · cases h
      exact .inl rfl
    rename_i build hbuild
    split at h
    · cases h
      exact .inl rfl
    rename_i bound scopes _
    refine .inr (.inr ⟨name, build, bound, hbuild, ?_⟩)
    split at h
    · rename_i hb
      cases h
      rw [hb]
    · rename_i hb
      cases h
      rw [hb]
  | held name =>
    simp only [produce] at h
    split at h
    · cases h
      exact .inl rfl
    split at h
    · cases h
      exact .inl rfl
    · cases h
      exact .inl rfl
  | plan name d =>
    simp only [produce] at h
    cases h
    exact (make_plan rfl).imp_right .inl

/-- Obtaining a task may make tasks and start them, and no more than that. -/
theorem produce_grown {p q : Plan} {catalog : Catalog} {root : TaskId} {source : Source}
    {scopes scopes' : Scopes} {result : Except Error Handle} (hcat : catalog.Modest)
    (h : produce catalog root source scopes p = (result, scopes', q)) :
    Plan.Grown p q := by
  obtain rfl | ⟨d, task, hi⟩ | ⟨name, build, arguments, hb, rfl⟩ := produce_plan h
  · exact .refl
  · exact .instantiate .refl hi
  · exact hcat name build hb arguments p

/-- The slots after a task was put into an empty one. -/
def fill (s : Slots) (key : SlotKey) (handle : Handle) : Slots :=
  { s with
    live := s.live ++ [⟨key, handle, key.role s.rolePrefix⟩]
    filled := handle :: s.filled }

/-- A slot that is filled is left alone. For another one the source is asked for a task; the slot is
filled once the task is attached under the root, and otherwise it stays empty. -/
theorem resolve_cases {s s' : Slots} {catalog : Catalog} {key : SlotKey} {source : Source}
    {scopes scopes' : Scopes} {p q : Plan} {result : Except Error Handle}
    (h : s.resolve catalog key source scopes p = (result, s', scopes', q)) :
    (s' = s ∧ scopes' = scopes ∧ q = p) ∨
      ∃ obtained r, produce catalog s.root.id source scopes p = (obtained, scopes', r) ∧
        (s' = s ∧ q = r ∨
          ∃ handle, r.attach s.root.id handle (key.role s.rolePrefix) = .ok q ∧
            s' = s.fill key handle) := by
  unfold resolve at h
  split at h
  · cases h
    exact .inl ⟨rfl, rfl, rfl⟩
  split at h
  · rename_i hp
    cases h
    exact .inr ⟨_, _, hp, .inl ⟨rfl, rfl⟩⟩
  rename_i hp
  split at h
  · cases h
    exact .inr ⟨_, _, hp, .inl ⟨rfl, rfl⟩⟩
  · rename_i ha
    cases h
    exact .inr ⟨_, _, hp, .inr ⟨_, ha, rfl⟩⟩

namespace Tidy

variable {root : TaskId} {s : Slots} {p q : Plan}

/-- The plan goes on without touching the children of the root. -/
theorem later (h : s.Tidy root p) (hl : Plan.Later p q)
    (hc : q.childrenOf root = p.childrenOf root) : s.Tidy root q where
  rooted := h.rooted
  numbered := (hl h.numbered).1
  attached := hc.trans h.attached
  distinct := h.distinct
  known := fun t ht => hl.known h.numbered (h.known t ht)
  held := h.held
  ended := fun t ht hn => hl.ended h.numbered (h.known t ht) (h.ended t ht hn)

theorem nodup (h : s.Tidy root p) : s.live.Nodup := nodup_of_distinct h.distinct

/-! ## Filling -/

/-- A task that the plan could attach is put into a new slot. -/
theorem fill (h : s.Tidy root p) {key : SlotKey} {handle : Handle} {role : String}
    (ha : p.attach root handle role = .ok q) :
    Tidy root { s with live := s.live ++ [⟨key, handle, role⟩], filled := handle :: s.filled }
      q := by
  obtain ⟨hl, hknown, hnew, hc⟩ := Plan.attach_ok ha
  refine ⟨h.rooted, (hl h.numbered).1, ?_, ?_, ?_, ?_, ?_⟩
  · rw [hc, if_pos rfl, h.attached]
    simp [attachments, Slot.attachment]
  · refine List.pairwise_append.mpr ⟨h.distinct, by simp, ?_⟩
    intro c hcl d hd
    obtain rfl := List.mem_singleton.mp hd
    have hmem : c.attachment ∈ p.childrenOf root := by
      rw [h.attached]
      exact List.mem_map_of_mem hcl
    exact (Plan.isOf_eq_false_comm (a := c.attachment) (b := ⟨handle, role⟩)).mp (hnew _ hmem)
  · intro t ht
    rcases List.mem_cons.mp ht with rfl | ht
    · exact hl.known h.numbered hknown
    · exact hl.known h.numbered (h.known t ht)
  · intro c hcl
    rcases List.mem_append.mp hcl with hcl | hcl
    · exact List.mem_cons_of_mem _ (h.held c hcl)
    · obtain rfl := List.mem_singleton.mp hcl
      exact List.mem_cons_self
  · intro t ht hn
    have hn' : s.isChild t.id = false ∧ handle.id ≠ t.id := by
      simpa [isChild] using hn
    rcases List.mem_cons.mp ht with rfl | ht
    · exact absurd rfl hn'.2
    · exact hl.ended h.numbered (h.known t ht) (h.ended t ht (by simpa using hn'.1))

theorem resolve (h : s.Tidy root p) {catalog : Catalog} (hcat : catalog.Modest) {key : SlotKey}
    {source : Source} {scopes scopes' : Scopes} {result : Except Error Handle} {s' : Slots}
    (hr : s.resolve catalog key source scopes p = (result, s', scopes', q)) :
    s'.Tidy root q := by
  obtain ⟨rfl, -, rfl⟩ | ⟨_, r, hproduce, hfilled⟩ := resolve_cases hr
  · exact h
  obtain ⟨hl, hc⟩ := (produce_grown hcat hproduce).ok
  have hlater : s.Tidy root r := h.later hl (Plan.childrenOf_congr hc root)
  obtain ⟨rfl, rfl⟩ | ⟨handle, ha, rfl⟩ := hfilled
  · exact hlater
  · rw [h.rooted] at ha
    exact hlater.fill ha

/-! ## Emptying -/

/-- What `release` stops: the plan after it knows that the task of the slot has ended, unless
another slot holds it. -/
theorem stopped {slot : Slot} (hk : (p.task? slot.handle.id).isSome = true) :
    ∃ q, (if s.isChild slot.handle.id || (p.state slot.handle.id).isTerminal then p
        else (p.stop slot.handle.id).toOption.getD p) = q ∧
      Plan.Later p q ∧ q.children = p.children ∧
      (s.isChild slot.handle.id = false → (q.state slot.handle.id).isTerminal = true) := by
  refine ⟨_, rfl, ?_⟩
  split
  · rename_i hkeep
    refine ⟨.refl p, rfl, fun hn => ?_⟩
    simpa [hn] using hkeep
  · obtain ⟨q, hq⟩ := Plan.exists_stop hk
    obtain ⟨hl, hc, he⟩ := Plan.stop_ok hq
    simp only [hq, Except.toOption, Option.getD_some]
    exact ⟨hl, hc, fun _ => he⟩

theorem release {l₁ l₂ : List Slot} {slot : Slot} (h : s.Tidy root p)
    (hlive : s.live = l₁ ++ slot :: l₂) :
    Tidy root { s with live := l₁ ++ l₂ }
      (({ s with live := l₁ ++ l₂ } : Slots).release slot p) := by
  have hslot : slot ∈ s.live := by simp [hlive]
  have hk := h.known _ (h.held slot hslot)
  obtain ⟨q, hq, hl, hc, hend⟩ := stopped (s := { s with live := l₁ ++ l₂ }) hk
  have hqc : q.childrenOf root = s.attachments := (Plan.childrenOf_congr hc root).trans h.attached
  have hmem : ∃ a ∈ q.childrenOf root, a.isOf slot.handle.id slot.role = true := by
    rw [hqc]
    exact ⟨slot.attachment, List.mem_map_of_mem hslot, Plan.isOf_self slot.attachment⟩
  obtain ⟨r, hr⟩ := Plan.exists_detach hmem
  obtain ⟨hl', hc'⟩ := Plan.detach_ok hr
  have hrelease : ({ s with live := l₁ ++ l₂ } : Slots).release slot p = r := by
    unfold Slots.release
    rw [hq, h.rooted]
    show (q.detach root slot.handle slot.role).toOption.getD q = r
    rw [hr]
    rfl
  have hdistinct := h.distinct
  rw [hlive, List.pairwise_append, List.pairwise_cons] at hdistinct
  obtain ⟨hd₁, ⟨hslot₂, hd₂⟩, hd₁₂⟩ := hdistinct
  have hpr : Plan.Later p r := hl.trans hl'
  rw [hrelease]
  refine ⟨h.rooted, (hpr h.numbered).1, ?_, ?_, ?_, ?_, ?_⟩
  · -- The attachments before the slot's own have another task or another role.
    rw [hc', if_pos rfl, hqc]
    simp only [attachments, hlive, List.map_append, List.map_cons]
    rw [List.eraseP_append_right, List.eraseP_cons_of_pos]
    · simp [Plan.isOf_iff, Slot.attachment]
    · intro a ha
      obtain ⟨c, hc, rfl⟩ := List.mem_map.mp ha
      have hne := hd₁₂ c hc slot List.mem_cons_self
      exact Bool.not_eq_true _ ▸ (Plan.isOf_eq_false_comm (a := slot.attachment)).mp hne
  · refine List.pairwise_append.mpr ⟨hd₁, hd₂, fun c hc d hd => ?_⟩
    exact hd₁₂ c hc d (List.mem_cons_of_mem _ hd)
  · exact fun t ht => hpr.known h.numbered (h.known t ht)
  · intro c hcl
    refine h.held c ?_
    rw [hlive]
    rcases List.mem_append.mp hcl with hcl | hcl
    · exact List.mem_append_left _ hcl
    · exact List.mem_append_right _ (List.mem_cons_of_mem _ hcl)
  · intro t ht hn
    by_cases he : slot.handle.id = t.id
    · have hq' := hend (by rw [he]; exact hn)
      rw [he] at hq' hk
      exact hl'.ended (hl h.numbered).1 (hl.known h.numbered hk) hq'
    · refine hpr.ended h.numbered (h.known t ht) (h.ended t ht ?_)
      simp only [isChild, List.any_append, Bool.or_eq_false_iff] at hn
      simp [isChild, hlive, hn, he]

theorem retire (h : s.Tidy root p) {key : SlotKey} {result : Option Handle} {s' : Slots}
    (hr : s.retire key p = (result, s', q)) : s'.Tidy root q := by
  unfold Slots.retire at hr
  split at hr
  · cases hr
    exact h
  · rename_i slot hslot
    cases hr
    obtain ⟨_, l₁, l₂, hlive, herase⟩ := slot?_split hslot
    rw [herase]
    exact h.release hlive

theorem releaseAll {slots : List Slot} (h : s.Tidy root p) (hsub : ∀ c ∈ slots, c ∈ s.live)
    (hnodup : slots.Nodup) {handles : List Handle} {s' : Slots}
    (hr : s.releaseAll slots p = (handles, s', q)) : s'.Tidy root q := by
  induction slots generalizing s p handles with
  | nil =>
    cases hr
    exact h
  | cons slot rest ih =>
    obtain ⟨hnot, hrest⟩ := List.nodup_cons.mp hnodup
    obtain ⟨l₁, l₂, hfresh, hlive, herase⟩ := List.exists_erase_eq (hsub slot List.mem_cons_self)
    simp only [Slots.releaseAll] at hr
    cases hr
    refine ih (s := { s with live := s.live.erase slot }) ?_ ?_ hrest rfl
    · rw [herase]
      exact h.release hlive
    · intro c hc
      have hne : c ≠ slot := fun he => hnot (he ▸ hc)
      exact (List.mem_erase_of_ne hne).mpr (hsub c (List.mem_cons_of_mem _ hc))

theorem retireLane (h : s.Tidy root p) {lane : Lane} {handles : List Handle} {s' : Slots}
    (hr : s.retireLane lane p = (handles, s', q)) : s'.Tidy root q := by
  refine h.releaseAll ?_ ?_ hr
  · intro c hc
    exact (List.mem_filter.mp (List.mem_reverse.mp hc)).1
  · exact List.pairwise_reverse.mpr ((h.nodup.filter _).imp Ne.symm)

theorem retireAll (h : s.Tidy root p) {handles : List Handle} {s' : Slots}
    (hr : s.retireAll p = (handles, s', q)) : s'.Tidy root q := by
  simp only [Slots.retireAll] at hr
  cases hr
  exact (h.retireLane rfl).retireLane rfl

end Tidy

/-! ## What is left -/

theorem count_releaseAll (slots : List Slot) (s : Slots) (p : Plan) (c : Slot) :
    (s.releaseAll slots p).2.1.live.count c = s.live.count c - slots.count c := by
  induction slots generalizing s p with
  | nil => rfl
  | cons slot rest ih =>
    simp only [releaseAll, ih, List.count_erase, List.count_cons]
    omega

theorem mem_retireLane (s : Slots) (lane : Lane) (p : Plan) (c : Slot) :
    c ∈ (s.retireLane lane p).2.1.live ↔ c ∈ s.live ∧ c.key.lane ≠ lane := by
  rw [← List.count_pos_iff, retireLane, count_releaseAll, List.count_reverse,
    ← List.count_pos_iff]
  by_cases h : c.key.lane = lane
  · rw [List.count_filter (by simpa using h)]
    simp [h]
  · have hnot : c ∉ s.live.filter fun c => c.key.lane == lane := by simp [h]
    rw [List.count_eq_zero.mpr hnot]
    simp [h]

theorem retireAll_live (s : Slots) (p : Plan) : (s.retireAll p).2.1.live = [] := by
  rw [List.eq_nil_iff_forall_not_mem]
  intro c hc
  simp only [retireAll, mem_retireLane] at hc
  cases h : c.key.lane with
  | model => exact hc.2 h
  | handler => exact hc.1.2 h

/-! ## The root stays -/

theorem resolve_root {s s' : Slots} {catalog : Catalog} {key : SlotKey} {source : Source}
    {scopes scopes' : Scopes} {p q : Plan} {result : Except Error Handle}
    (h : s.resolve catalog key source scopes p = (result, s', scopes', q)) : s'.root = s.root := by
  obtain ⟨rfl, -, -⟩ | ⟨_, _, -, ⟨rfl, -⟩ | ⟨_, -, rfl⟩⟩ := resolve_cases h
  · rfl
  · rfl
  · rfl

theorem retire_root {s s' : Slots} {key : SlotKey} {p q : Plan} {result : Option Handle}
    (h : s.retire key p = (result, s', q)) : s'.root = s.root := by
  unfold retire at h
  split at h
  · cases h
    rfl
  · cases h
    rfl

/-- Emptying slots changes only which are filled. -/
theorem releaseAll_eq (slots : List Slot) (s : Slots) (p : Plan) :
    (s.releaseAll slots p).2.1 = { s with live := (s.releaseAll slots p).2.1.live } := by
  induction slots generalizing s p with
  | nil => rfl
  | cons slot rest ih => exact ih ..

theorem releaseAll_root (slots : List Slot) (s : Slots) (p : Plan) :
    (s.releaseAll slots p).2.1.root = s.root := by
  rw [releaseAll_eq]

theorem retireLane_root (s : Slots) (lane : Lane) (p : Plan) :
    (s.retireLane lane p).2.1.root = s.root :=
  releaseAll_root ..

theorem retireAll_root (s : Slots) (p : Plan) : (s.retireAll p).2.1.root = s.root :=
  (retireLane_root ..).trans (retireLane_root ..)

end Slots

end Conductor
