import Conductor.Proofs.Engine.Window
import Conductor.Proofs.Session.Calls

/-!
The engines of a session run on its stage: whatever is done with the session, its model and its
handler, if there is one, have come to where they are by runs.
-/

namespace Conductor

namespace Scene

variable {c c' : Scene}

/-- The engines of a session are under way on its stage. -/
structure Underway (c : Scene) : Prop where
  model : ∃ n, c.session.engine.Run .model c.stage n
  handler : ∀ active, c.session.faults.active = some active →
    ∃ n, active.engine.Run .handler c.stage n

/-- Between two scenes events were recorded at most. -/
structure Follows (c c' : Scene) : Prop where
  log : c.stage.log.Extends c'.stage.log
  root : c'.stage.root = c.stage.root

theorem Follows.of_moves {lane : Lane} {s : Stage} (h : c.stage.Moves lane s)
    (hl : c'.stage.log = s.log) (hr : c'.stage.root = s.root) : c.Follows c' where
  log := by
    rw [hl, h.log]
    exact .refl _
  root := hr.trans h.root

theorem Follows.run {lane : Lane} {e : Engine} (h : c.Follows c')
    (hr : ∃ n, e.Run lane c.stage n) : ∃ n, e.Run lane c'.stage n := by
  obtain ⟨n, hn⟩ := hr
  exact ⟨n, hn.world h.log h.root⟩

namespace Underway

theorem of_same (h : c.Underway) (he : c'.session.engine = c.session.engine)
    (ha : c'.session.faults.active = c.session.faults.active) (hf : c.Follows c') :
    c'.Underway where
  model := by
    rw [he]
    exact hf.run h.model
  handler := by
    rw [ha]
    exact fun active h' => hf.run (h.handler active h')

theorem of_no_handler (hm : ∃ n, c.session.engine.Run .model c.stage n)
    (ha : c.session.faults.active = none) : c.Underway :=
  ⟨hm, fun _ h => nomatch ha.symm.trans h⟩

theorem hear (h : c.Underway) (e : Event) : (c.hear e).Underway :=
  h.of_same rfl rfl ⟨Log.extends_record .., rfl⟩

theorem abandonHandler (h : c.Underway) (hs : c.Sound) : c.abandonHandler.2.Underway := by
  refine of_no_handler ?_ (abandonHandler_active c)
  unfold Scene.abandonHandler
  split
  · exact h.model
  · rename_i active ha
    have hmoves := (Engine.stop_calms (hs.handler active ha) c.stage).1
    obtain ⟨n, hn⟩ := h.model
    refine ⟨n, hn.world ?_ hmoves.root⟩
    rw [← hmoves.log]
    exact .refl _

theorem withEngine {e : Engine} {s : Stage} (ha : c.session.faults.active = none)
    (h : ∃ n, e.Run .model s n) : (c.withEngine e s).Underway :=
  of_no_handler h ha

theorem map_closing (h : c.Underway) {g : Session → Session} (hg : Closing g) :
    (c.map g).Underway := by
  refine h.of_same (hg.engine _) (congrArg Dispatch.active (hg.faults _)) ⟨?_, ?_⟩
  · show c.session.core.log.Extends (g c.session).core.log
    rw [hg.log]
    exact .refl _
  · show (g c.session).core.slots.root.id = c.session.core.slots.root.id
    rw [hg.slots]

theorem retireEverything (h : c.Underway) (hs : c.Sound) : c.retireEverything.Underway := by
  have hcleared : c.cleared.Underway := (h.abandonHandler hs).of_same rfl rfl ⟨.refl _, rfl⟩
  obtain ⟨n, hn⟩ := hcleared.model
  have hstopped := hn.act .stop
  have hkept := Stage.Kept.retireAll (c.cleared.session.engine.stop c.cleared.stage).2
  rw [retireEverything_eq]
  refine withEngine (abandonHandler_active c) ⟨_, hstopped.world ?_ (congrArg Handle.id hkept.root)⟩
  rw [hkept.log]
  exact .refl _

theorem closing (h : c.Underway) (hs : c.Sound) {g : Session → Session} (hg : Closing g)
    (hc : c' = c.retireEverything.map g) : c'.Underway := by
  rw [hc]
  exact (h.retireEverything hs).map_closing hg

theorem turn {m m' : Moment} (ht : Turn m m') (hs : m.scene.Sound) (h : m.scene.Underway) :
    m'.scene.Underway := by
  cases ht with
  | begin | cancel | count | unhandled | trigger | draw =>
    exact h.of_same rfl rfl ⟨.refl _, rfl⟩
  | hear e hr => exact h.hear e
  | model hr ha hact =>
    obtain ⟨n, hn⟩ := h.model
    exact of_no_handler ⟨_, hn.act hact⟩ ha
  | @handler c active e s hr ha hact =>
    have hmoves := (hact.moves (hs.handler active ha)).1
    obtain ⟨n, hn⟩ := h.handler active ha
    refine ⟨(Follows.of_moves hmoves rfl rfl).run h.model, fun other ho => ?_⟩
    obtain rfl := Option.some.inj ho
    exact ⟨_, hn.act hact⟩
  | @queue c f hr ha =>
    obtain ⟨trail, he⟩ := c.enqueue_eq f
    obtain ⟨pending, hq⟩ := c.session.faults.enqueue_eq f
    show (c.enqueue f).Underway
    rw [he]
    have ha' : (c.session.faults.enqueue f).2.active = c.session.faults.active := by rw [hq]
    exact h.of_same rfl ha' ⟨.refl _, rfl⟩
  | displace hr ha => exact (h.abandonHandler hs).of_same rfl rfl ⟨.refl _, rfl⟩
  | @install c f target hr ha =>
    have hf : c.Follows (c.install target f) := ⟨.refl _, rfl⟩
    refine ⟨hf.run h.model, fun active ho => ?_⟩
    obtain rfl := Option.some.inj ho
    exact ⟨_, .new ..⟩
  | @resolve c active completion hr ha =>
    have hf : c.Follows (c.resolved active completion) := ⟨.refl _, rfl⟩
    exact of_no_handler (hf.run h.model) (endHandler_active ..)
  | @escalate c active hr ha =>
    have hf : c.Follows (c.escalate active).2 := ⟨.refl _, rfl⟩
    exact of_no_handler (hf.run h.model) (endHandler_active ..)
  | @exhaust c f hr =>
    obtain ⟨g, hg, he⟩ := fail_eq (c.giveUp f) .escalationExhausted
    have hgiven : (c.giveUp f).Underway := h.of_same rfl rfl ⟨.refl _, rfl⟩
    have hsound : (c.giveUp f).Sound := hs.of_same rfl rfl id
    exact hgiven.closing hsound hg he
  | succeed completion hr =>
    obtain ⟨g, hg, he⟩ := succeed_eq _ completion
    exact h.closing hs hg he
  | fail error hr =>
    obtain ⟨g, hg, he⟩ := fail_eq _ error
    exact h.closing hs hg he
  | halt reason hr =>
    obtain ⟨g, hg, he⟩ := halt_eq _ reason
    exact h.closing hs hg he

theorem drive (h : c.Underway) (command : Ground.Command) : (c.drive command).Underway := by
  have hsame := c.drive_session command
  refine h.of_same (by rw [hsame]) (by rw [hsame]) ⟨?_, ?_⟩
  · show c.session.core.log.Extends (c.drive command).session.core.log
    rw [hsame]
    exact .refl _
  · show (c.drive command).session.core.slots.root.id = _
    rw [hsame]
    rfl

theorem after (h : c.Underway) (hs : c.Sound) (calls : List Call) : (c.after calls).Underway :=
  after_preserves (fun _ _ => turn) hs (fun _ command _ h => h.drive command) h

end Underway

end Scene

theorem Session.Unstarted.underway {root : Handle} {s : Session} (h : s.Unstarted root)
    (p : Plan) : Scene.Underway ⟨s, p⟩ := by
  refine .of_no_handler ?_ h.fresh.active
  induction h with
  | new id model => exact ⟨_, .new ..⟩
  | withConfig config _ ih | withCatalog catalog _ ih | withTable t _ ih =>
    obtain ⟨n, hn⟩ := ih
    exact ⟨n, hn.world (.refl _) rfl⟩

/-- Whatever is done with a session that was set up, its engines are under way on its stage. -/
theorem Scene.after_underway {root : Handle} {s : Session} (hs : s.Unstarted root) (p : Plan)
    (calls : List Call) : (Scene.after ⟨s, p⟩ calls).Underway :=
  (hs.underway p).after (hs.fresh.sound p) calls

/-- Whenever the guards of a step are evaluated, a leaf on the root counts as true only if its event
is on record since the window of the step opened, and unless it was decided before, exactly then.
The window opens where the step was entered if the step has a task or no step had one before, and
else where the last step with a task was entered. -/
theorem activation_window {lane : Lane} {e : Engine} {s : Stage} {n : Nat}
    (h : e.Run lane s n) {v : Evaluation} (hv : v ∈ e.evaluations s) :
    v.truth = v.guard.weigh (Leaf.verdict v.view v.memo) ∧
      e.course.window n ≤ n ∧
      ∀ event, let truth := (Leaf.emitted .root event).verdict v.view v.memo
        (truth = .yes → s.log.Shows s.root event (e.course.window n)) ∧
        (e.course.task?.isSome ∨ e.course.last = none →
          truth = .yes → s.log.Shows s.root event n) ∧
        (v.memo.lookup (.emitted .root event) = none →
          (truth = .yes ↔ s.log.Shows s.root event (e.course.window n))) := by
  have hlooks := h.looks hv
  refine ⟨v.guard.evaluate_eq_weigh v.view v.memo, h.windowed.2.window_le, fun event => ?_⟩
  refine ⟨hlooks.shows, fun hown hyes => ?_, hlooks.verdict_iff⟩
  have hwindow : e.course.window n = n := by
    unfold Course.window
    rcases hown with hown | hown
    · obtain ⟨task, ht⟩ := Option.isSome_iff_exists.mp hown
      rw [ht]
    · rw [hown]
      split
      · rename_i hl
        cases hl
      · rfl
  rw [← hwindow]
  exact hlooks.shows hyes

/-- A session that waits for the root to be told to go on, after some instructions. -/
def Session.pausing (instructions : List Instruction) : Session :=
  (Session.new "session" .sample (.script ⟨"patrol", [],
    instructions ++ [.wait "pause" (.leaf (.emitted .root ⟨"go"⟩))]⟩)).withCatalog
      (Catalog.empty.addBuilder "worker" (.started "Worker"))

theorem Session.pausing_unstarted (instructions : List Instruction) :
    (Session.pausing instructions).Unstarted .sample :=
  .withCatalog _ (.new ..)

/-- An instruction that waits first sees what was recorded since it was entered. -/
theorem activation_window_first :
    let c := (Scene.after ⟨.pausing [], .sample⟩ [.start]).hear .go
    ∃ n, c.session.engine.Run .model c.stage n ∧
      ∃ v ∈ c.session.engine.evaluations c.stage,
        (Leaf.emitted .root ⟨"go"⟩).verdict v.view v.memo = .yes ∧
          c.stage.log.Shows c.stage.root ⟨"go"⟩ n := by
  intro c
  obtain ⟨n, hn⟩ := (Scene.after_underway (Session.pausing_unstarted []) .sample [.start]).model
  have hrun : c.session.engine.Run .model c.stage n := hn.world (Log.extends_record ..) rfl
  obtain ⟨v, hv⟩ : ∃ v, c.session.engine.evaluations c.stage = [v] := ⟨_, rfl⟩
  have hmem : v ∈ c.session.engine.evaluations c.stage := by simp [hv]
  have hyes : (Leaf.emitted .root ⟨"go"⟩).verdict v.view v.memo = .yes := by
    cases hv
    decide
  obtain ⟨_, _, hleaf⟩ := activation_window hrun hmem
  exact ⟨n, hrun, v, hmem, hyes, (hleaf ⟨"go"⟩).2.1 (.inr (by decide)) hyes⟩

/-- An event of the root that nothing waits for. -/
def Event.tick : Event := ⟨Handle.sample.id, ⟨"tick"⟩, none⟩

/-- An instruction that waits after one with a task takes what the root emitted before it was
entered: told to go on during the task, the session ends as soon as anything happens. -/
theorem activation_window_reopened :
    let before := Scene.after ⟨.pausing [.run "go" (.builder "worker" .empty)], .sample⟩
      [.start, .deliver (.event .go), .deliver (.event ⟨⟨"task-2"⟩, .success, none⟩)]
    let c := before.hear .tick
    (∃ n, c.session.engine.Run .model c.stage n ∧
      (∃ v ∈ c.session.engine.evaluations c.stage,
        (Leaf.emitted .root ⟨"go"⟩).verdict v.view v.memo = .yes) ∧
      ¬ c.stage.log.Shows c.stage.root ⟨"go"⟩ n) ∧
    (before.deliver (.event .tick)).1 = .succeeded ⟨"patrol", .scriptEnd 2, .nominal,
      [.advanced 0 "go" (some ⟨"task-2"⟩) false, .advanced 1 "pause" none false]⟩ := by
  intro before c
  refine ⟨?_, by decide⟩
  obtain ⟨n, hn⟩ := (Scene.after_underway (Session.pausing_unstarted _) .sample _).model
  have hrun : c.session.engine.Run .model c.stage n := hn.world (Log.extends_record ..) rfl
  obtain ⟨step, hstep, hsince⟩ : ∃ step, c.session.engine.course.step = some step ∧
      step.since = 2 := ⟨_, rfl, by decide⟩
  have hentered : n = 2 := (hrun.windowed.2.since step hstep).symm.trans hsince
  obtain ⟨v, hv⟩ : ∃ v, c.session.engine.evaluations c.stage = [v] := ⟨_, rfl⟩
  refine ⟨n, hrun, ⟨v, by simp [hv], ?_⟩, ?_⟩
  · cases hv
    decide
  · rw [hentered, ← Log.occurred_iff]
    decide

end Conductor
