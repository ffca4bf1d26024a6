import Conductor.Proofs.Scopes.Peeking
import Conductor.Proofs.Session.Nesting
import Conductor.Proofs.Session.Reentry

/-!
The values that a session shows of its variables. It shows the innermost value that is held, while
guards and arguments read where the name is decided about. Nothing is held outside for what the model
declares, so the two differ only while a handler is active that declares the name itself and has no
value for it yet.
-/

namespace Conductor

namespace Stage

variable {lane : Lane} {s s' : Stage}

theorem Moves.apart (h : s.Moves lane s') (hs : s.scopes.Apart) : s'.scopes.Apart := by
  refine h.preserves (P := fun t => t.scopes.Apart) (fun t t' hm ht => ?_) hs
  refine hm.scopes (fun hg h => h.get hg) (fun hw h => h.set hw) (fun t depth label value h => ?_)
    (fun t depth h => ?_) ht
  · refine h.modifyAt (fun scope => ?_) (fun scope name hnone => ?_) depth
    · rfl
    · exact hnone
  · refine h.modifyAt (fun scope => ?_) (fun scope name hnone => ?_) depth
    · rfl
    · rw [Scope.reset, Dict.get?_filter]
      split
      · exact hnone
      · rfl

end Stage

namespace Scene

variable {c c' : Scene}

/-- Nothing is held outside for what the model declares, in scopes that are nested as they should. -/
structure Layered (c : Scene) : Prop where
  nested : c.Nested
  apart : c.session.core.scopes.Apart

namespace Layered

theorem abandonHandler (h : c.Layered) (hs : c.Sound) :
    c.abandonHandler.2.session.core.scopes.Apart := by
  unfold Scene.abandonHandler
  split
  · exact h.apart
  · rename_i active ha
    exact ((Engine.stop_calms (hs.handler active ha) c.stage).1.moves.apart h.apart).pop

theorem closing (h : c.Layered) (hs : c.Sound) {g : Session → Session} (hg : Closing g)
    (hc : c' = c.retireEverything.map g) : c'.session.core.scopes.Apart := by
  have hcleared : c.cleared.session.core.scopes.Apart := h.abandonHandler hs
  have hstop := (Engine.stop_calms hs.cleared c.cleared.stage).1.moves.apart hcleared
  rw [hc, retireEverything_eq]
  simp only [map, hg.scopes, withEngine_core, Stage.retireAll_scopes]
  exact hstop

theorem turn {m m' : Moment} (ht : Turn m m') (hs : m.scene.Sound) (h : m.scene.Layered) :
    m'.scene.Layered := by
  refine ⟨h.nested.turn ht hs, ?_⟩
  cases ht with
  | begin | cancel | hear | count | unhandled | draw | trigger => exact h.apart
  | model hr ha hact => exact (hact.moves hs.model).1.apart h.apart
  | handler hr ha hact => exact (hact.moves (hs.handler _ ha)).1.apart h.apart
  | @queue c f hr ha =>
    obtain ⟨trail, he⟩ := c.enqueue_eq f
    show (c.enqueue f).session.core.scopes.Apart
    rw [he]
    exact h.apart
  | displace hr ha => exact h.abandonHandler hs
  | @install c f target hr ha =>
    have hdepth := h.nested.scopes
    rw [nesting, ha] at hdepth
    exact h.apart.push (Nat.le_of_eq hdepth.symm) _ _
  | resolve | escalate => exact h.apart.pop
  | @exhaust c f hr =>
    obtain ⟨g, hg, he⟩ := fail_eq (c.giveUp f) .escalationExhausted
    have hgiven : (c.giveUp f).Layered := ⟨h.nested.of_same rfl rfl rfl, h.apart⟩
    exact hgiven.closing (hs.of_same rfl rfl id) hg he
  | succeed completion hr =>
    obtain ⟨g, hg, he⟩ := succeed_eq _ completion
    exact h.closing hs hg he
  | fail error hr =>
    obtain ⟨g, hg, he⟩ := fail_eq _ error
    exact h.closing hs hg he
  | halt reason hr =>
    obtain ⟨g, hg, he⟩ := halt_eq _ reason
    exact h.closing hs hg he

theorem drive (h : c.Layered) (command : Ground.Command) : (c.drive command).Layered :=
  ⟨h.nested.drive command, by rw [c.drive_session command]; exact h.apart⟩

theorem call (h : c.Layered) (hs : c.Sound) (call : Call) : (c.call call).Layered :=
  (call_preserves (fun _ _ => turn) hs call (fun command _ h => h.drive command) h).1

end Layered

end Scene

theorem Session.Unstarted.apart {root : Handle} {s : Session} (h : s.Unstarted root) :
    s.core.scopes.Apart := by
  induction h with
  | new id model =>
    intro i inner outer hdepth hinner houter name hdeclared
    cases hdepth
    cases houter
    rfl
  | withConfig config _ ih | withCatalog catalog _ ih | withTable t _ ih => exact ih

theorem Session.Reachable.layered {s : Session} (h : s.Reachable) (p : Plan) :
    Scene.Layered ⟨s, p⟩ := by
  induction h generalizing p with
  | unstarted hu => exact ⟨hu.nested p, hu.apart⟩
  | call q call hs ih =>
    have hcall := (ih q).call (hs.sound q) call
    exact ⟨hcall.nested.of_same rfl rfl rfl, hcall.apart⟩
  | taken _ ih => exact ⟨(ih p).nested.of_same rfl rfl rfl, (ih p).apart⟩

/-- An unresolved variable of which a value shows is one that the active handler declares. -/
theorem Scene.Layered.masked {c : Scene} (h : c.Layered) {name : String} {value : Value}
    (hp : c.session.valueOf? name = some value) (hu : c.session.core.scopes.Unresolved name) :
    ∃ active scope outer, c.session.faults.active = some active ∧
      c.session.core.scopes.levels = scope :: outer ∧ (scope.declaration? name).isSome = true ∧
      scope.values.get? name = none ∧ Scopes.peek? ⟨outer⟩ name = some value := by
  have hdepth := h.nested.scopes
  cases ha : c.session.faults.active with
  | none =>
    rw [nesting, ha] at hdepth
    exact absurd hu (h.apart.resolved hdepth hp)
  | some active =>
    rw [nesting, ha] at hdepth
    obtain ⟨scope, inner, outer, hlevels⟩ :
        ∃ scope inner outer, c.session.core.scopes.levels = [scope, inner, outer] :=
      List.length_eq_three.1 hdepth
    have hpeek : c.session.valueOf? name =
        (scope.values.get? name).or (Scopes.peek? ⟨[inner, outer]⟩ name) := by
      rw [← Scopes.peek?_cons, ← hlevels]
      rfl
    rw [hpeek] at hp
    rcases hu.cases hlevels with ⟨hdeclared, hnone⟩ | ⟨hunknown, hu⟩
    · rw [hnone] at hp
      exact ⟨active, scope, _, rfl, hlevels, hdeclared, hnone, hp⟩
    · rw [Scope.not_held hunknown] at hp
      have houter : Scopes.Apart ⟨[inner, outer]⟩ := by
        have hpop := h.apart.pop
        rwa [Scopes.pop, hlevels] at hpop
      exact absurd hu (houter.resolved rfl hp)

/-- What shows of a variable is what is read, unless the scope that decides about it has no value for
it yet; then it is read by its declaration there, and what shows comes from further out. In a session
only an active handler has such variables, those that it declares itself. A snapshot has of each
name what shows of it. -/
theorem shown_unless_unresolved (scopes : Scopes) (name : String) :
    scopes.snapshot.get? name = scopes.peek? name ∧
      ∀ value, scopes.peek? name = some value →
        (¬scopes.Unresolved name → ∀ argument?, scopes.get argument? name = .ok (value, scopes)) ∧
        (scopes.Unresolved name → ∃ scope d, scopes.deciding? name = some scope ∧
          scope.declaration? name = some d ∧ ∀ argument?, scopes.reading argument? name =
            Scope.Binding.reading argument? scopes.output? name ⟨none, some d⟩) ∧
        ∀ (s : Session) (p : Plan), s.Reachable → s.core.scopes = scopes →
          s.valueOf? name = some value ∧
          (¬scopes.Unresolved name →
            (Scene.stage ⟨s, p⟩).read name = .ok (value, Scene.stage ⟨s, p⟩)) ∧
          (scopes.Unresolved name → ∃ active scope outer, s.faults.active = some active ∧
            scopes.levels = scope :: outer ∧ (scope.declaration? name).isSome = true ∧
            scope.values.get? name = none ∧ Scopes.peek? ⟨outer⟩ name = some value) := by
  refine ⟨Scopes.snapshot_get? scopes name, fun value hp => ⟨Scopes.get_of_peek hp,
    Scopes.Unresolved.reading, fun s p hs hscopes => ?_⟩⟩
  subst hscopes
  refine ⟨hp, fun hresolved => ?_, (hs.layered p).masked hp⟩
  rw [Stage.read]
  have hget := Scopes.get_of_peek hp hresolved
  simp only [Scene.stage, hget, Except.map]

/-! ## A sample -/

/-- A handler that has a mode of its own, and waits until it is on or the root says to go on. -/
def Response.masking : Response :=
  ⟨"mend", .any, .script ⟨"mender", [⟨"mode", none, .assigned⟩],
    [.wait "pause" (.any [.leaf (.equals "mode" (.text "on")), .leaf (.emitted .root ⟨"go"⟩)])]⟩,
    0, .direct, .goOn, false⟩

def Session.masked : Session :=
  ((Session.new "session" .sample (.script .guarded)).withCatalog
    (Catalog.empty.addBuilder "worker" (.started "Worker"))).withTable
      (.ofResponses "mending" [.masking])

theorem Session.masked_unstarted : Session.masked.Unstarted .sample :=
  .withTable _ (.withCatalog _ (.new ..))

/-- As long as the model runs, the mode that shows is the one that is read. -/
theorem shown_unless_unresolved_running :
    let c := Scene.after ⟨.masked, .sample⟩ [.start]
    c.session.Reachable ∧ c.session.valueOf? "mode" = some (.text "on") ∧
      ¬c.session.core.scopes.Unresolved "mode" ∧
      c.stage.read "mode" = .ok (.text "on", c.stage) := by
  intro c
  have hreachable : c.session.Reachable :=
    (Session.Reachable.unstarted Session.masked_unstarted).after .sample _
  have hshown : c.session.valueOf? "mode" = some (.text "on") := by decide +kernel
  have hresolved : ¬c.session.core.scopes.Unresolved "mode" := by decide +kernel
  obtain ⟨_, hpeek⟩ := shown_unless_unresolved c.session.core.scopes "mode"
  obtain ⟨_, _, hsession⟩ := hpeek (.text "on") hshown
  obtain ⟨_, hread, _⟩ := hsession c.session c.plan hreachable rfl
  exact ⟨hreachable, hshown, hresolved, hread hresolved⟩

/-- While the handler waits for the mode to be on, the session shows that it is. The handler has no
mode yet, and no guard reads one. -/
theorem shown_through_handler :
    let c := Scene.after ⟨.masked, .sample⟩ [.start, .deliver (.fault .ofTask)]
    c.session.Reachable ∧ c.session.isRunning = true ∧ c.session.faults.active.isSome = true ∧
      c.session.valueOf? "mode" = some (.text "on") ∧
      c.session.core.scopes.snapshot.get? "mode" = some (.text "on") ∧
      ∀ argument?, c.session.core.scopes.reading argument? "mode" =
        .error (.unboundVariable "mode") := by
  intro c
  have hreachable : c.session.Reachable :=
    (Session.Reachable.unstarted Session.masked_unstarted).after .sample _
  have hbinding : c.session.core.scopes.binding? "mode" =
      some ⟨none, some ⟨"mode", none, .assigned⟩⟩ := by decide +kernel
  refine ⟨hreachable, by decide +kernel, by decide +kernel, by decide +kernel, by decide +kernel,
    fun argument? => ?_⟩
  rw [Scopes.reading_eq, hbinding]
  rfl

end Conductor
