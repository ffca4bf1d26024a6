import Conductor.Proofs.Session.Calls
import Conductor.Proofs.Stage.Kept

/-!
A session leaves no task behind. Between any two calls the children attached under its root are
the tasks of its filled slots, there are none unless it is running, and what it once attached and
holds no longer has ended.
-/

namespace Conductor

namespace Scene

/-- The slots agree with the plan, and a session that is not running holds nothing. -/
structure Orderly (root : TaskId) (c : Scene) : Prop where
  tidy : c.stage.Tidy root
  idle : c.session.isRunning = false → c.session.core.slots.live = []

namespace Orderly

variable {root : TaskId} {c c' : Scene}

/-- Slots and plan are as before, and the session still runs if it did. -/
theorem of_same (h : c.Orderly root) (hs : c'.session.core.slots = c.session.core.slots)
    (hc : c'.session.core.catalog = c.session.core.catalog) (hp : c'.plan = c.plan)
    (hr : c'.session.isRunning = false → c.session.isRunning = false) : c'.Orderly root where
  tidy := ⟨by simpa only [stage, hs, hp] using h.tidy.slots,
    by simpa only [stage, hc] using h.tidy.catalog⟩
  idle := fun hn => by
    rw [hs]
    exact h.idle (hr hn)

theorem of_running (hr : c.session.isRunning = true) (ht : c.stage.Tidy root) : c.Orderly root :=
  ⟨ht, fun hn => absurd (hr.symm.trans hn) (by simp)⟩

theorem abandonHandler (h : c.Orderly root) (hs : c.Sound) :
    c.abandonHandler.2.stage.Tidy root := by
  cases ha : c.session.faults.active with
  | none =>
    simp only [Scene.abandonHandler, ha]
    exact h.tidy
  | some active =>
    have htidy := h.tidy.moves (Engine.stop_calms (hs.handler active ha) c.stage).1.moves
    simp only [Scene.abandonHandler, ha]
    exact ⟨htidy.slots, htidy.catalog⟩

/-- Retiring everything leaves nothing. -/
theorem retireEverything (h : c.Orderly root) (hs : c.Sound) :
    c.retireEverything.stage.Tidy root ∧ c.retireEverything.session.core.slots.live = [] := by
  have hcleared : c.cleared.stage.Tidy root :=
    ⟨(h.abandonHandler hs).slots, (h.abandonHandler hs).catalog⟩
  have htidy := (hcleared.moves (Engine.stop_calms hs.cleared c.cleared.stage).1.moves).retireAll
  have hlive : (c.cleared.session.engine.stop c.cleared.stage).2.retireAll.slots.live = [] :=
    Stage.retireAll_live _
  rw [retireEverything_eq]
  generalize (c.cleared.session.engine.stop c.cleared.stage).2.retireAll = s at htidy hlive
  exact ⟨htidy, hlive⟩

theorem closing (h : c.Orderly root) (hs : c.Sound) {g : Session → Session} (hg : Closing g)
    (hc : c' = c.retireEverything.map g) : c'.Orderly root := by
  obtain ⟨htidy, hlive⟩ := h.retireEverything hs
  rw [hc]
  refine ⟨⟨?_, ?_⟩, fun _ => ?_⟩
  · simpa only [stage, map, hg.slots] using htidy.slots
  · simpa only [stage, map, hg.catalog] using htidy.catalog
  · simp only [map, hg.slots]
    exact hlive

/-! ## Turns and calls -/

theorem turn {m m' : Moment} (ht : Turn m m') (hs : m.scene.Sound) (h : m.scene.Orderly root) :
    m'.scene.Orderly root := by
  cases ht with
  | begin => exact h.of_same rfl rfl rfl fun hn => nomatch hn
  | cancel hcreated => exact h.of_same rfl rfl rfl fun _ => congrArg Status.isRunning hcreated
  | hear e hr => exact h.of_same rfl rfl rfl id
  | count f hr => exact h.of_same rfl rfl rfl id
  | model hr ha hact => exact of_running hr (h.tidy.moves (hact.moves hs.model).1)
  | handler hr ha hact => exact of_running hr (h.tidy.moves (hact.moves (hs.handler _ ha)).1)
  | unhandled hr => exact h.of_same rfl rfl rfl id
  | @queue c f hr ha =>
    obtain ⟨trail, he⟩ := c.enqueue_eq f
    show (c.enqueue f).Orderly root
    rw [he]
    exact h.of_same rfl rfl rfl id
  | draw hr ha hp => exact h.of_same rfl rfl rfl id
  | @displace c f active hr ha =>
    have htidy := h.abandonHandler hs
    refine of_running ?_ ⟨htidy.slots, htidy.catalog⟩
    obtain ⟨_, hstatus, _⟩ := abandonHandler_ok ha
    show c.abandonHandler.2.session.status.isRunning = true
    rw [hstatus]
    exact hr
  | trigger response hr hd => exact h.of_same rfl rfl rfl id
  | install target hr ha => exact h.of_same rfl rfl rfl id
  | resolve completion hr ha => exact h.of_same rfl rfl rfl id
  | escalate hr ha => exact h.of_same rfl rfl rfl id
  | @exhaust c f hr =>
    obtain ⟨g, hg, he⟩ := fail_eq (c.giveUp f) .escalationExhausted
    have hgiven : (c.giveUp f).Orderly root := h.of_same rfl rfl rfl id
    exact hgiven.closing (hs.of_same rfl rfl id) hg he
  | succeed completion hr =>
    obtain ⟨g, hg, he⟩ := succeed_eq _ completion
    exact h.closing hs hg he
  | fail error hr =>
    obtain ⟨g, hg, he⟩ := fail_eq _ error
    exact h.closing hs hg he
  | halt reason hr =>
    obtain ⟨g, hg, he⟩ := halt_eq _ reason
    exact h.closing hs hg he

theorem drive (h : c.Orderly root) {command : Ground.Command} (hs : command.Spares root) :
    (c.drive command).Orderly root := by
  unfold Scene.drive
  split
  · rename_i reply g hg
    obtain ⟨hl, hc⟩ := Ground.perform_ok hg
    exact ⟨⟨h.tidy.slots.later hl (hc root hs), h.tidy.catalog⟩, h.idle⟩
  · exact h

theorem after (h : c.Orderly root) (hs : c.Sound) {calls : List Call}
    (hcalls : ∀ command, .drive command ∈ calls → command.Spares root) :
    (c.after calls).Orderly root :=
  after_preserves (fun _ _ => turn) hs (fun _ command hc h => h.drive (hcalls command hc)) h

end Orderly

end Scene

theorem Session.Fresh.orderly {root : Handle} {s : Session} (hs : s.Fresh root)
    (hcat : s.core.catalog.Modest) {p : Plan} (hp : p.Numbered) (hc : p.childrenOf root.id = []) :
    Scene.Orderly root.id ⟨s, p⟩ where
  tidy := by
    refine ⟨?_, hcat⟩
    show s.core.slots.Tidy root.id p
    rw [hs.slots]
    exact Slots.tidy_new _ hp hc
  idle := fun _ => by
    rw [hs.slots]
    rfl

/-- A session that was set up for a root without children leaves no task behind, whatever is done
with it and however its plan goes on, as long as its builders make and start tasks only and nobody
else attaches or detaches children of the root. -/
theorem no_orphans {root : Handle} {s : Session} (hs : s.Unstarted root)
    (hcat : s.core.catalog.Modest) {p : Plan} (hp : p.Reachable)
    (hc : p.childrenOf root.id = []) {calls : List Call}
    (hcalls : ∀ command, .drive command ∈ calls → command.Spares root.id) :
    let c := Scene.after ⟨s, p⟩ calls
    c.plan.childrenOf root.id = c.session.core.slots.live.map Slot.attachment ∧
      (c.session.isRunning = false → c.plan.childrenOf root.id = []) ∧
      ∀ h ∈ c.session.core.slots.filled, c.session.core.slots.isChild h.id = false →
        (c.plan.state h.id).isTerminal = true := by
  intro c
  have h : c.Orderly root.id :=
    (hs.fresh.orderly hcat hp.numbered hc).after (hs.fresh.sound p) hcalls
  have hchildren : c.plan.childrenOf root.id = c.session.core.slots.live.map Slot.attachment :=
    h.tidy.slots.attached
  refine ⟨hchildren, fun hn => ?_, h.tidy.slots.ended⟩
  rw [hchildren, h.idle hn]
  rfl

theorem no_orphans_after_stop :
    let c := Scene.after ⟨.sample, .sample⟩ [.start, .stop]
    (Scene.after ⟨.sample, .sample⟩ [.start]).session.core.slots.live.length = 1 ∧
      c.plan.childrenOf Handle.sample.id = [] ∧
      ∀ h ∈ c.session.core.slots.filled, (c.plan.state h.id).isTerminal = true := by
  have hspared : ∀ command, Call.drive command ∈ [.start, .stop] →
      command.Spares Handle.sample.id := by simp
  obtain ⟨_, hempty, hended⟩ := no_orphans Session.sample_unstarted Session.sample_modest
    Plan.sample_reachable (by decide) hspared
  exact ⟨by decide, hempty (by decide), fun h hf => hended h hf (by rfl)⟩

end Conductor
