import Conductor.Proofs.Engine.MachinePath
import Conductor.Proofs.Engine.ScriptPath
import Conductor.Proofs.Session.Windows

/-!
The paths of engines, whatever is done with them. An engine may be started anew, suspended and stopped
at any time, lose the task of its step and go on without it: its path still tells the way to the step
that it is in, and a completion that it reports tells the way to the end.
-/

namespace Conductor

open ScriptRun (Covers)
open MachineRun (EndsIn)

/-- A session that has a worker to give to its model. -/
def Session.employing (model : Model) : Session :=
  (Session.new "session" .sample model).withCatalog
    (Catalog.empty.addBuilder "worker" (.started "Worker"))

theorem Session.employing_unstarted (model : Model) :
    (Session.employing model).Unstarted .sample :=
  .withCatalog _ (.new ..)

/-- The worker has failed. -/
def Event.failure : Event := ⟨Plan.idOf 2, .failed, none⟩

/-- The path of a machine that was built leads from the initial state to the state that it is in, and
that of its completion to the terminal state where it ended. A machine that was never started is in
no state. -/
theorem machine_path {lane : Lane} {r : MachineRun} {s : Stage} {n : Nat}
    (hbuilt : r.machine.Built) (h : Engine.Run lane (.machine r) s n) :
    (r.status = .idle → r.state = none ∧ r.path = []) ∧
      (r.status ≠ .idle →
        ∃ id, r.state = some id ∧ r.machine.Leads r.machine.initial r.path id) ∧
      ∀ completion e' s', Engine.Answers (.machine r) s (.finished completion) e' s' →
        ∃ r' state, e' = .machine r' ∧ r'.state = some state.id ∧ completion.path = r'.path ∧
          EndsIn r.machine completion state := by
  have hplaced := MachineRun.Reached.placed h.reached hbuilt
  refine ⟨hplaced.unstarted, hplaced.leads, fun completion e' s' hanswers => ?_⟩
  have hgoes := hanswers.goes h.windowed.1
  obtain ⟨r', rfl, hmachine, hplaced'⟩ := hplaced.paces hbuilt hgoes.paces
  obtain ⟨hfinished, hcompletion⟩ := hgoes.reports completion rfl
  obtain ⟨state, hstate, hpath, hends⟩ := hplaced'.endsIn hfinished hcompletion
  rw [hmachine] at hends
  exact ⟨r', state, rfl, hstate, hpath, hends⟩

/-- A state that is left when its worker fails. -/
def State.retreating : State :=
  ⟨"walk", some (.builder "worker" .empty), [⟨.on .failed, "home", []⟩], [], false⟩

def State.home : State := ⟨"home", none, [], [], true⟩

def Machine.retreating : Machine := ⟨"patrol", [], [.retreating, .home], "walk"⟩

theorem Machine.retreating_built : Machine.retreating.Built :=
  ⟨"patrol", [], _, _, .state .home (.initial .retreating .empty), rfl⟩

theorem machine_path_recovered :
    let c := (Scene.after ⟨.employing (.machine .retreating), .sample⟩ [.start]).hear .failure
    ∃ completion, (c.session.engine.onEvent .failure c.stage).1 = .finished completion ∧
      completion.path = [.transition "walk" "home" 0 true] ∧ completion.ending = .state "home" ∧
      completion.kind = .failureRecovered := by
  intro c
  have hunderway := Scene.after_underway (Session.employing_unstarted (.machine .retreating))
    .sample [.start]
  obtain ⟨n, hrun⟩ : ∃ n, c.session.engine.Run .model c.stage n := (hunderway.hear .failure).model
  obtain ⟨r, hr, hmachine⟩ : ∃ r, c.session.engine = .machine r ∧ r.machine = .retreating :=
    ⟨_, rfl, rfl⟩
  obtain ⟨completion, hfinished, hpath, hending⟩ : ∃ completion,
      (c.session.engine.onEvent .failure c.stage).1 = .finished completion ∧
        completion.path = [.transition "walk" "home" 0 true] ∧ completion.ending = .state "home" :=
    ⟨_, rfl, by decide, by decide⟩
  have hanswers := Engine.Answers.onEvent (e := c.session.engine) (s := c.stage) .failure
  rw [hfinished] at hanswers
  rw [hr] at hrun hanswers
  have hbuilt : r.machine.Built := hmachine ▸ Machine.retreating_built
  obtain ⟨r', state, -, -, -, hends⟩ :=
    (machine_path hbuilt hrun).2.2 completion _ _ hanswers
  have hlast : completion.path.getLast? = some (.transition "walk" "home" 0 true) := by
    simp [hpath]
  exact ⟨completion, hfinished, hpath, hending, hends.kind.mpr ⟨_, hlast, rfl⟩⟩

end Conductor
