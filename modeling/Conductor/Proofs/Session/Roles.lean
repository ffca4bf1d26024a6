import Conductor.Proofs.Session.Backlog
import Conductor.Proofs.Session.Steadiness
import Mathlib.Data.List.Nodup

/-!
Roles across sessions. A filled slot has the role of its key under the prefix that the settings of its
session name, and no two slots of a session have the same key. So a role stands for one slot: no other
slot of the session has it, and none of a session with another prefix.
-/

namespace Conductor

/-- Valid settings name a prefix that ends where a role has its first slash. -/
theorem Config.slash_notMem_of_validate {c : Config} (h : c.validate = .ok ()) :
    '/' ∉ c.rolePrefix.toList := by
  unfold validate at h
  split at h
  · cases h
  split at h
  · cases h
  · assumption

namespace Scene

variable {c c' : Scene}

/-- A session gives out roles with the prefix that its settings name. When it has ended, no slot is
filled. -/
def Labelled (c : Scene) : Prop :=
  c.session.status.isTerminal = true ∧ c.session.core.slots.live = [] ∨
    c.session.core.slots.rolePrefix = c.session.config.rolePrefix

namespace Labelled

theorem closing {g : Session → Session} (hg : Closing g) (hc : c' = c.retireEverything.map g) :
    c'.Labelled := by
  subst hc
  exact .inl ⟨hg.ended _, (congrArg Slots.live (hg.slots _)).trans (retireEverything_live c)⟩

theorem turn {m m' : Moment} (ht : Turn m m') (hs : m.scene.Sound) (h : m.scene.Labelled) :
    m'.scene.Labelled := by
  have hlabel := h.resolve_left fun hended => ht.not_terminal hended.1
  cases ht with
  | begin | cancel | hear | count | unhandled | draw | trigger | install | resolve | escalate =>
    exact .inr hlabel
  | model hr ha hact =>
    exact .inr ((hact.moves hs.model).1.sameRoles.rolePrefix.trans hlabel)
  | handler hr ha hact =>
    exact .inr ((hact.moves (hs.handler _ ha)).1.sameRoles.rolePrefix.trans hlabel)
  | @queue c f =>
    obtain ⟨trail, he⟩ := c.enqueue_eq f
    show (c.enqueue f).Labelled
    rw [he]
    exact .inr hlabel
  | @displace c f active hr ha =>
    have hmoves := (Engine.stop_calms (hs.handler active ha) c.stage).1.moves
    have hkept : c.abandonHandler.2.session.core.slots.rolePrefix =
        c.session.core.slots.rolePrefix := by
      simp only [abandonHandler, ha]
      exact hmoves.sameRoles.rolePrefix
    have hconfig : c.abandonHandler.2.session.config.rolePrefix = c.session.config.rolePrefix :=
      congrArg Config.rolePrefix (abandonHandler_config c)
    exact .inr (hkept.trans (hlabel.trans hconfig.symm))
  | @exhaust c f =>
    obtain ⟨g, hg, he⟩ := fail_eq (c.giveUp f) .escalationExhausted
    exact closing hg he
  | succeed completion =>
    obtain ⟨g, hg, he⟩ := succeed_eq _ completion
    exact closing hg he
  | fail error =>
    obtain ⟨g, hg, he⟩ := fail_eq _ error
    exact closing hg he
  | halt reason =>
    obtain ⟨g, hg, he⟩ := halt_eq _ reason
    exact closing hg he

end Labelled

end Scene

namespace Session.Reachable

variable {s : Session}

theorem labelled (h : s.Reachable) (p : Plan) : Scene.Labelled ⟨s, p⟩ := by
  induction h generalizing p with
  | unstarted hu => exact .inr (by rw [hu.fresh.slots]; rfl)
  | call q call hr ih =>
    refine (Scene.call_preserves (P := Scene.Labelled) (fun _ _ ht hs h => h.turn ht hs) (hr.sound q)
      call (fun command _ hc => ?_) (ih q)).1
    unfold Scene.Labelled
    rw [Scene.drive_session]
    exact hc
  | taken _ ih => exact ih p

theorem role_of_mem (h : s.Reachable) {slot : Slot} (hslot : slot ∈ s.core.slots.live) :
    slot.role = slot.key.role s.config.rolePrefix := by
  rcases h.labelled .empty with ⟨-, hnone⟩ | hlabel
  · have hnone' : s.core.slots.live = [] := hnone
    rw [hnone'] at hslot
    cases hslot
  · have hlabel' : s.core.slots.rolePrefix = s.config.rolePrefix := hlabel
    rw [← hlabel']
    exact (h.steady .empty).regular.roled slot hslot

/-- The filled slots are in different lanes. -/
theorem lanes_apart (h : s.Reachable) :
    s.core.slots.live.Pairwise fun slot other => slot.key.lane ≠ other.key.lane := by
  refine List.pairwise_map.mp (List.nodup_iff_count_le_one.mpr fun lane => ?_)
  rw [List.count, List.countP_map]
  exact h.liveIn_le lane

theorem nodup_roles (h : s.Reachable) : (s.core.slots.live.map Slot.role).Nodup := by
  refine List.pairwise_map.mpr (h.lanes_apart.imp_of_mem fun hslot hother hlanes hroles => ?_)
  rw [h.role_of_mem hslot, h.role_of_mem hother] at hroles
  exact SlotKey.role_ne hlanes _ hroles

end Session.Reachable

/-- With valid settings two roles are the same only if their prefixes are the same and their slots
are, whatever the steps are called. So the filled slots of a session, each of which has the role of
its key, have different roles, and with another prefix no other session has any of them. -/
theorem roles_identify_slots {c d : Config} (hc : c.validate = .ok ()) (hd : d.validate = .ok ()) :
    (∀ key other : SlotKey,
      key.role c.rolePrefix = other.role d.rolePrefix ↔ c.rolePrefix = d.rolePrefix ∧ key = other) ∧
    ∀ s : Session, s.Reachable →
      (∀ slot ∈ s.core.slots.live, slot.role = slot.key.role s.config.rolePrefix) ∧
      (s.core.slots.live.map Slot.role).Nodup ∧
      ∀ s' : Session, s'.Reachable → s.config = c → s'.config = d → c.rolePrefix ≠ d.rolePrefix →
        ∀ slot ∈ s.core.slots.live, ∀ slot' ∈ s'.core.slots.live, slot.role ≠ slot'.role := by
  have hinj : ∀ key other : SlotKey, key.role c.rolePrefix = other.role d.rolePrefix ↔
      c.rolePrefix = d.rolePrefix ∧ key = other := fun _ _ =>
    SlotKey.role_inj (Config.slash_notMem_of_validate hc) (Config.slash_notMem_of_validate hd)
  refine ⟨hinj, fun s h => ⟨fun _ => h.role_of_mem, h.nodup_roles, ?_⟩⟩
  rintro s' h' rfl rfl hne slot hslot slot' hslot' hrole
  rw [h.role_of_mem hslot, h'.role_of_mem hslot', hinj] at hrole
  exact hne hrole.1

/-- Settings whose prefix is not the one that is taken by default. -/
def Config.elsewhere : Config := { rolePrefix := "elsewhere" }

/-- A session with those settings, at its task. -/
def Session.elsewhere : Session :=
  (Scene.after ⟨sample.withConfig .elsewhere, .sample⟩ [.start]).session

theorem Session.elsewhere_reachable : elsewhere.Reachable :=
  (Reachable.unstarted (.withConfig .elsewhere sample_unstarted)).after .sample [.start]

theorem roles_identify_slots_elsewhere :
    let aided := Session.aided.core.slots.live
    let elsewhere := Session.elsewhere.core.slots.live
    Session.aided.config.validate = .ok () ∧ Config.elsewhere.validate = .ok () ∧
      SlotKey.role ⟨.model, "go", 1⟩ "coordination" ≠
        SlotKey.role ⟨.model, "go#1/model/go", 1⟩ "elsewhere" ∧
      aided.length = 2 ∧ (aided.map Slot.role).Nodup ∧ elsewhere.length = 1 ∧
      ∀ slot ∈ aided, ∀ slot' ∈ elsewhere, slot.role ≠ slot'.role := by
  intro aided elsewhere
  have haided : Session.aided.config.validate = .ok () := by decide
  have helsewhere : Config.elsewhere.validate = .ok () := by decide
  obtain ⟨hinj, hsessions⟩ := roles_identify_slots haided helsewhere
  obtain ⟨-, hnodup, hapart⟩ := hsessions Session.aided Session.aided_reachable
  have hlabel : Session.aided.config.rolePrefix ≠ Config.elsewhere.rolePrefix := by decide
  refine ⟨haided, helsewhere, fun h => ?_, by decide, hnodup, by decide,
    hapart Session.elsewhere Session.elsewhere_reachable rfl rfl hlabel⟩
  exact absurd ((hinj _ _).mp h).1 hlabel

end Conductor
