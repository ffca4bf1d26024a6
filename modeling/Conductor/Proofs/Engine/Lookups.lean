import Conductor.Proofs.Engine.Errors
import Conductor.Proofs.Engine.MachinePath

/-!
A machine that was built knows its states. Whatever an engine of such a machine goes through, it is in
no state or in one that is declared, in one as long as it runs, and nothing that it does fails because
a state is unknown.
-/

namespace Conductor

namespace Error

def isUnknownState : Error → Bool
  | unknownState _ => true
  | _ => false

theorem known_of_isObstacle {e : Error} (h : e.isObstacle = true) : e.isUnknownState = false := by
  cases e <;> first | rfl | cases h

end Error

/-- If this is a failure, then not of a state that is not declared. -/
def Progress.Known : Progress → Prop
  | .failed e => e.isUnknownState = false
  | _ => True

namespace Machine

variable {m : Machine} {id : String}

theorem Leads.isSome {start : String} {path : List Step} (h : m.Leads start path id)
    (hbuilt : m.Built) (hstart : (m.state? start).isSome = true) :
    (m.state? id).isSome = true := by
  cases h with
  | nil => exact hstart
  | snoc via _ hstate ht => exact hbuilt.target_isSome hstate ht

theorem exists_of_state? (h : (m.state? id).isSome = true) :
    ∃ state ∈ m.states, state.id = id ∧ m.state? id = some state := by
  obtain ⟨state, hstate⟩ := Option.isSome_iff_exists.mp h
  exact ⟨state, List.mem_of_find?_eq_some hstate, by simpa using List.find?_some hstate, hstate⟩

end Machine

namespace MachineRun

variable {r r' : MachineRun} {log : Log} {root : TaskId} {s s' : Stage} {p : Progress}

theorem Placed.isSome (h : r.Placed) (hbuilt : r.machine.Built) {id : String}
    (hid : r.state = some id) : (r.machine.state? id).isSome = true := by
  have hstarted : r.status ≠ .idle := fun hidle => by simp [(h.unstarted hidle).1] at hid
  obtain ⟨id', hid', hleads⟩ := h.leads hstarted
  obtain rfl := Option.some.inj (hid.symm.trans hid')
  exact hleads.isSome hbuilt hbuilt.initial_isSome

/-- A run of a machine that was built is in no state or in one that is declared. -/
theorem Placed.state (h : r.Placed) (hbuilt : r.machine.Built) :
    r.state = none ∨ ∃ state ∈ r.machine.states, r.state = some state.id := by
  cases hid : r.state with
  | none => exact .inl rfl
  | some id =>
    obtain ⟨state, hmem, rfl, -⟩ := Machine.exists_of_state? (h.isSome hbuilt hid)
    exact .inr ⟨state, hmem, rfl⟩

/-- As long as a machine that was built runs, the state that it is in is found. -/
theorem Placed.active (h : r.Placed) (hbuilt : r.machine.Built) (hr : r.status = .running) :
    ∃ state ∈ r.machine.states, r.active? = some state := by
  obtain ⟨id, hid, -⟩ := h.leads (by simp [hr])
  obtain ⟨state, hmem, -, hstate⟩ := Machine.exists_of_state? (h.isSome hbuilt hid)
  exact ⟨state, hmem, by rw [active?, hid, Option.bind_some, hstate]⟩

/-! ## What a run fails of -/

theorem enter_known {id : String} (hid : (r.machine.state? id).isSome = true) (s : Stage) :
    (r.enter id s).1.Known := by
  unfold enter
  split
  · rename_i hnone
    simp [hnone] at hid
  · rename_i state _
    simp only
    split
    · trivial
    split
    · rename_i he
      have hobstacle := (Course.takeTask_obstacle _ state.id state.source s).error
        (congrArg Prod.fst he)
      exact Error.known_of_isObstacle hobstacle
    · trivial

theorem takeTransition_known {state : State} {t : Transition}
    (ht : (r.machine.state? t.target).isSome = true) (position : Nat) (step : ActiveStep)
    (s : Stage) :
    (r.takeTransition state position t step s).1.Known := by
  have hupdates := applyUpdates_obstacle (step.focus r.last) step.task t.updates s
  simp only [takeTransition]
  split
  · rename_i he
    exact Error.known_of_isObstacle (hupdates.error (congrArg Prod.fst he))
  · refine enter_known ?_ _
    exact ht

theorem check_known {state : State} (hbuilt : r.machine.Built)
    (hstate : r.machine.state? state.id = some state) (s : Stage) :
    (r.check state s).1.Known := by
  unfold check
  split
  · trivial
  extract_lets ended
  split
  · split
    · trivial
    split
    · trivial
    split
    · rfl
    · trivial
  split
  · rename_i htry
    -- The transition that is taken is one of the state's, so that its target is declared.
    obtain ⟨i, -, ht, -⟩ := (tryTransitions_tried htry).fits
    refine takeTransition_known ?_ ..
    exact hbuilt.target_isSome hstate ht
  · simp only
    generalize (if state.transitions.isEmpty = true then ended else _) = stuck
    split
    · rfl
    · trivial

theorem start_known (hbuilt : r.machine.Built) (h : r.start s = .ok (p, r', s')) : p.Known := by
  unfold start at h
  split at h
  · cases h
  · obtain rfl : _ = p := congrArg Prod.fst (Except.ok.inj h)
    refine enter_known ?_ s
    exact hbuilt.initial_isSome

theorem start_error_known {e : Error} (h : r.start s = .error e) : e.isUnknownState = false := by
  unfold start at h
  split at h
  · cases h
    rfl
  · cases h

theorem onEvent_known (hbuilt : r.machine.Built) (event : Event) (s : Stage) :
    (r.onEvent event s).1.Known := by
  unfold onEvent
  split
  · trivial
  split
  · trivial
  · rename_i state hactive
    have hstate := (state_of_active hactive).2
    split
    · split
      · rename_i he
        exact Error.known_of_isObstacle
          ((forward_obstacle event state.forwards s).error (congrArg Prod.fst he))
      · exact check_known hbuilt hstate _
    · exact check_known hbuilt hstate s

theorem resume_known (hplaced : r.Placed) (hbuilt : r.machine.Built) (s : Stage) :
    (r.resume s).1.Known := by
  unfold resume
  split
  · trivial
  split
  · trivial
  rename_i id hid
  have hsome := hplaced.isSome hbuilt hid
  split
  · exact enter_known hsome s
  split
  · rename_i state hstate
    have hactive : r.active? = some state := by rw [active?, hid, Option.bind_some, hstate]
    exact check_known hbuilt (state_of_active hactive).2 s
  · rename_i hnone
    simp [hnone] at hsome

end MachineRun

namespace Engine

/-- An engine of a model that was led through acts, each of them on any stage at all. -/
inductive Led (model : Model) (lane : Lane) (depth : Nat) : Engine → Prop where
  | new : Led model lane depth (.new model lane depth)
  | act {e e' : Engine} {s s' : Stage} : Led model lane depth e → e.Act s e' s' →
    Led model lane depth e'

variable {m : Machine} {r : MachineRun} {lane : Lane} {depth : Nat} {e e' : Engine}
  {s s' : Stage} {p : Progress}

theorem Led.runsIn {model : Model} (h : Led model lane depth e) : e.RunsIn lane := by
  induction h with
  | new => exact new_runsIn model lane depth
  | act _ hact ih => exact (hact.moves ih).2

/-- An engine that runs a machine which was built is in its place all along. -/
theorem Led.placed (h : Led (.machine m) lane depth e) (hbuilt : m.Built) :
    ∃ r, e = .machine r ∧ r.machine = m ∧ r.Placed := by
  induction h with
  | new =>
    exact ⟨.new m lane depth, rfl, rfl,
      MachineRun.Reached.placed (.new m lane depth (.empty) ⟨""⟩) hbuilt⟩
  | act hled hact ih =>
    obtain ⟨r, rfl, rfl, hplaced⟩ := ih
    exact hplaced.paces hbuilt (hact.paces hled.runsIn)

theorem Answers.known (h : Answers (.machine r) s p e' s') (hlane : r.RunsIn lane)
    (hplaced : r.Placed) (hbuilt : r.machine.Built) : p.Known := by
  cases h with
  | start hs =>
    obtain ⟨_, hr, he⟩ := Except.map_eq_ok hs
    cases he
    exact MachineRun.start_known hbuilt hr
  | onEvent event => exact MachineRun.onEvent_known hbuilt event s
  | resume => exact MachineRun.resume_known hplaced hbuilt s
  | restart =>
    obtain ⟨s₁, -, -, heq⟩ := restart_eq (e := .machine r) hlane s
    rw [heq]
    split
    · rename_i hs
      obtain ⟨_, hr, he⟩ := Except.map_eq_ok hs
      cases he
      refine MachineRun.start_known ?_ hr
      exact hbuilt
    · rename_i herror
      exact MachineRun.start_error_known (Except.map_eq_error herror)

end Engine

/-- A machine is built exactly if an initial state is given, the states go by distinct names, terminal
states have no transitions, transitions lead to declared states, and variables go by distinct names.
An engine of a machine that was built is then in no state or in a declared one, whatever it is led
through on whatever stages. As long as it runs it finds that state, so that events do not pass it by
for want of one, and nothing that it does fails because a state is unknown. -/
theorem Machine.built_never_lost {name : String} {vars : List Declaration} {states : List State}
    {initial : Option String} (hdrafted : Drafted states initial) :
    ((∃ m, build name vars states initial = .ok m) ↔
      initial ≠ none ∧ (states.map State.id).Nodup ∧
        (∀ state ∈ states, state.terminal = true → state.transitions = []) ∧
        (∀ state ∈ states, ∀ t ∈ state.transitions, t.target ∈ states.map State.id) ∧
        (vars.map Declaration.name).Nodup) ∧
    ∀ m, build name vars states initial = .ok m →
      ∀ lane depth e, Engine.Led (.machine m) lane depth e →
        ∃ r, e = .machine r ∧ r.machine = m ∧
          (r.state = none ∨ ∃ state ∈ m.states, r.state = some state.id) ∧
          (r.status = .running → ∃ state ∈ m.states, r.active? = some state) ∧
          ∀ s id, e.start s ≠ .error (.unknownState id) ∧
            ∀ p e' s', e.Answers s p e' s' → p ≠ .failed (.unknownState id) := by
  refine ⟨build_isOk_iff.trans ⟨fun h => ⟨h.given, h.distinct, h.terminal, h.targets, h.distinctVars⟩,
    fun ⟨h₁, h₂, h₃, h₄, h₅⟩ => ⟨h₁, h₂, h₃, h₄, h₅⟩⟩, ?_⟩
  intro m hbuild lane depth e hled
  have hbuilt : m.Built := ⟨name, vars, states, initial, hdrafted, hbuild⟩
  obtain ⟨r, rfl, rfl, hplaced⟩ := hled.placed hbuilt
  refine ⟨r, rfl, rfl, hplaced.state hbuilt, hplaced.active hbuilt, fun s id => ⟨?_, ?_⟩⟩
  · intro herror
    have hknown := MachineRun.start_error_known (Except.map_eq_error herror)
    cases hknown
  · rintro _ e' s' hanswers rfl
    have hknown := hanswers.known hled.runsIn hplaced hbuilt
    cases hknown

/-! ## A sample -/

/-- A state that is left for itself whenever the root says so. -/
def State.watch : State :=
  ⟨"watch", none, [⟨.leaf (.emitted .root ⟨"go"⟩), "watch", []⟩], [], false⟩

/-- A stage with nothing but a root. -/
def Stage.gate : Stage where
  catalog := .empty
  scopes := .base
  slots := .new ⟨⟨"task-1"⟩, "Mission"⟩ "session"
  log := .empty
  interests := .empty
  trail := .empty true
  plan := (Plan.empty.addRoot "Mission").2

/-- A machine with that state, started anew, and then told by the root to go. -/
def Engine.rounds : Progress × Engine × Stage :=
  let started := (Engine.new (.machine ⟨"rounds", [], [.watch], "watch"⟩) .model 0).restart .gate
  let told : Event := ⟨⟨"task-1"⟩, ⟨"go"⟩, none⟩
  started.2.1.onEvent told { started.2.2 with log := started.2.2.log.record told }

/-- It went round once, and it can be told again. -/
theorem Machine.built_never_lost_rounds :
    Engine.rounds.2.1.course.path = [.transition "watch" "watch" 0 false] ∧
      Engine.rounds.2.1.isRunning = true ∧
      ∀ event id, (Engine.rounds.2.1.onEvent event Engine.rounds.2.2).1 ≠
        .failed (.unknownState id) := by
  have hled : Engine.Led (.machine ⟨"rounds", [], [.watch], "watch"⟩) .model 0 Engine.rounds.2.1 :=
    (Engine.Led.new.act .restart).act (.onEvent _)
  have hdrafted : Drafted [.watch] (some "watch") := .initial .watch .empty
  obtain ⟨-, hlost⟩ := @built_never_lost "rounds" [] _ _ hdrafted
  obtain ⟨r, -, -, -, -, hknown⟩ := hlost _ rfl .model 0 _ hled
  exact ⟨by decide, by decide, fun event id => (hknown _ id).2 _ _ _ (.onEvent event)⟩

end Conductor
