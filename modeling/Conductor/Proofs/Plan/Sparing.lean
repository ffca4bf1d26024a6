import Conductor.Proofs.Plan.Requests

/-!
Sparing an attachment. What a session asks of a plan may leave the task of an attachment alone: the
task is not asked to stop, and it is not detached from its role. What builders do to the plan of
their own accord is told apart from that. Modest ones leave all that is attached alone too.
-/

namespace Conductor

namespace Plan

/-- A request that does not stop the task of an attachment under the given parent, and does not
detach it. -/
def Request.Spares (parent : TaskId) (a : Attachment) : Request → Prop
  | .stop task => task ≠ a.child.id
  | .detach p child role => ¬ (p = parent ∧ a.isOf child.id role = true)
  | _ => True

/-- One plan comes from another by requests that spare an attachment, and by what the builders of a
catalog do. -/
inductive Spared (catalog : Catalog) (parent : TaskId) (a : Attachment) (p : Plan) : Plan → Prop
  where
  | refl : Spared catalog parent a p p
  | ask {q r : Plan} (request : Request) : Spared catalog parent a p q →
    request.Spares parent a → request.grant q = .ok r → Spared catalog parent a p r
  | build {q : Plan} {name : String} {b : Builder} (arguments : Dict String Value) :
    Spared catalog parent a p q → catalog.builders.get? name = some b →
    Spared catalog parent a p (b arguments q).2

/-- An attachment stays, and its task is not asked to stop. -/
structure Keeps (parent : TaskId) (a : Attachment) (p q : Plan) : Prop where
  attached : a ∈ p.childrenOf parent → a ∈ q.childrenOf parent
  stopped : q.wasStopped a.child.id = p.wasStopped a.child.id

variable {catalog : Catalog} {parent : TaskId} {a : Attachment} {p q r : Plan}

namespace Keeps

theorem refl (p : Plan) : Keeps parent a p p := ⟨id, rfl⟩

theorem trans (h : Keeps parent a p q) (h' : Keeps parent a q r) : Keeps parent a p r :=
  ⟨fun ha => h'.attached (h.attached ha), h'.stopped.trans h.stopped⟩

theorem of_eq (hc : q.children = p.children) (hs : q.stopped = p.stopped) : Keeps parent a p q := by
  refine ⟨fun ha => ?_, ?_⟩
  · rw [childrenOf_congr hc]
    exact ha
  · rw [wasStopped, hs]
    rfl

theorem instantiate {d : Description} {h : Handle} (hi : p.instantiate d = .ok (h, q)) :
    Keeps parent a p q := by
  obtain ⟨-, rfl⟩ := instantiate_eq hi
  exact of_eq rfl rfl

theorem start {task : Handle} (hs : p.start task = .ok q) : Keeps parent a p q := by
  obtain ⟨t, -, -, rfl⟩ | ⟨-, rfl⟩ := start_eq hs
  · exact of_eq rfl rfl
  · exact refl q

theorem stop {task : TaskId} (ht : task ≠ a.child.id) (hs : p.stop task = .ok q) :
    Keeps parent a p q := by
  obtain ⟨t, -, rfl⟩ := stop_eq hs
  refine ⟨id, ?_⟩
  simp [stopping, wasStopped, KeySet.contains_add, Ne.symm ht]

theorem attach {p' : TaskId} {child : Handle} {role : String}
    (ha : p.attach p' child role = .ok q) : Keeps parent a p q := by
  obtain ⟨_, _, _, hc⟩ := attach_ok ha
  refine ⟨fun hmem => ?_, ?_⟩
  · rw [hc]
    split
    · rename_i he
      exact List.mem_append_left _ (he ▸ hmem)
    · exact hmem
  · rw [(attach_eq ha).2.2]
    rfl

theorem detach {p' : TaskId} {child : Handle} {role : String}
    (hspared : ¬ (p' = parent ∧ a.isOf child.id role = true))
    (hd : p.detach p' child role = .ok q) : Keeps parent a p q := by
  obtain ⟨_, hc⟩ := detach_ok hd
  refine ⟨fun hmem => ?_, ?_⟩
  · rw [hc]
    split
    · rename_i he
      have hother : ¬ a.isOf child.id role = true := fun ho => hspared ⟨he.symm, ho⟩
      rw [he] at hmem
      refine (List.mem_eraseP_of_neg ?_).mpr hmem
      exact hother
    · exact hmem
  · obtain ⟨children, he⟩ := p.leaving_eq p'
      ((p.childrenOf p').eraseP fun a => a.isOf child.id role)
    rw [detach_eq hd, he]
    rfl

end Keeps

theorem Request.Spares.keeps {request : Request} (hs : request.Spares parent a)
    (h : request.grant p = .ok q) : Keeps parent a p q := by
  cases request with
  | instantiate d =>
    cases hi : p.instantiate d with
    | error e => simp [grant, hi, Except.map] at h
    | ok made =>
      obtain rfl : made.2 = q := by simpa [grant, hi, Except.map] using h
      exact .instantiate hi
  | start task => exact .start h
  | stop task => exact .stop hs h
  | attach p' child role => exact .attach h
  | detach p' child role => exact .detach hs h
  | setArgument task name value =>
    obtain rfl := setArgument_eq h
    exact .of_eq rfl rfl
  | emit task event payload =>
    obtain rfl := emit_eq h
    exact .of_eq rfl rfl

theorem Grown.keeps (h : Grown p q) : Keeps parent a p q := by
  induction h with
  | refl => exact .refl p
  | instantiate _ hi ih => exact ih.trans (.instantiate hi)
  | start _ hs ih => exact ih.trans (.start hs)

namespace Spared

theorem trans (h : Spared catalog parent a p q) (h' : Spared catalog parent a q r) :
    Spared catalog parent a p r := by
  induction h' with
  | refl => exact h
  | ask request _ hs hg ih => exact .ask request ih hs hg
  | build arguments _ hb ih => exact .build arguments ih hb

theorem of_grant (request : Request) (hs : request.Spares parent a)
    (h : request.grant p = .ok q) : Spared catalog parent a p q :=
  .ask request .refl hs h

theorem instantiate {d : Description} {h : Handle} (hi : p.instantiate d = .ok (h, q)) :
    Spared catalog parent a p q := by
  refine of_grant (.instantiate d) trivial ?_
  simp only [Request.grant, hi]
  rfl

/-- A request that the plan may refuse, where a refusal is of no consequence. -/
theorem granted (request : Request) (hs : request.Spares parent a) :
    Spared catalog parent a p ((request.grant p).toOption.getD p) := by
  cases h : request.grant p with
  | error e => exact .refl
  | ok q => exact of_grant request hs h

/-- What is spared stays, as long as the builders are modest. -/
theorem keeps (h : Spared catalog parent a p q) (hcat : catalog.Modest) : Keeps parent a p q := by
  induction h with
  | refl => exact .refl p
  | ask request _ hs hg ih => exact ih.trans (hs.keeps hg)
  | build arguments _ hb ih => exact ih.trans (hcat _ _ hb arguments _).keeps

end Spared

end Plan

end Conductor
