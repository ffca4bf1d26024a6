import Conductor.Document.Model
import Conductor.Proofs.Engine.Histories
import Conductor.Proofs.Machine
import Mathlib.Data.List.Induction

/-!
The path of a machine. It leads from the initial state to the state that the machine is in, by one
transition after the other, each declared in the state that it leaves. A state that is entered again
adds nothing to the path, and a run that starts anew starts with an empty one.
-/

namespace Conductor

namespace Machine

/-- The states that a machine is made of, added one after the other, and the one of them that was
added as the initial state, by its name; the last one that was counts. -/
inductive Drafted : List State → Option String → Prop where
  | empty : Drafted [] none
  | state {states : List State} {initial : Option String} (state : State) :
    Drafted states initial → Drafted (states ++ [state]) initial
  | initial {states : List State} {initial : Option String} (state : State) :
    Drafted states initial → Drafted (states ++ [state]) (some state.id)

/-- A machine that was built. -/
def Built (m : Machine) : Prop :=
  ∃ name vars states initial, Drafted states initial ∧ build name vars states initial = .ok m

/-- A path leads from one state to another by transitions that are declared. -/
inductive Leads (m : Machine) (start : String) : List Step → String → Prop where
  | nil : Leads m start [] start
  | snoc {path : List Step} {here : String} {state : State} {position : Nat} {t : Transition}
    (via : Bool) : Leads m start path here → m.state? here = some state →
    state.transitions[position]? = some t →
    Leads m start (path ++ [.transition here t.target position via]) t.target

variable {m : Machine} {states : List State} {initial : Option String} {state : State}

theorem Drafted.declared (h : Drafted states initial) {id : String} (hid : initial = some id) :
    id ∈ states.map State.id := by
  induction h with
  | empty => cases hid
  | state state _ ih =>
    rw [List.map_append]
    exact List.mem_append_left _ (ih hid)
  | initial state _ _ =>
    obtain rfl := Option.some.inj hid
    simp

theorem state?_isSome {id : String} : (m.state? id).isSome = true ↔ id ∈ m.states.map State.id := by
  simp [state?]

/-- The initial state of a machine that was built is declared. -/
theorem Built.initial_isSome (h : m.Built) : (m.state? m.initial).isSome = true := by
  obtain ⟨_, _, states, initial, hdrafted, hbuild⟩ := h
  obtain ⟨-, start, hinitial, rfl⟩ := build_eq_ok_iff.mp hbuild
  exact state?_isSome.mpr (hdrafted.declared hinitial)

/-- The transitions of a machine that was built lead to declared states. -/
theorem Built.target_isSome (h : m.Built) {id : String} (hstate : m.state? id = some state)
    {position : Nat} {t : Transition} (ht : state.transitions[position]? = some t) :
    (m.state? t.target).isSome = true := by
  obtain ⟨_, _, states, initial, -, hbuild⟩ := h
  obtain ⟨hwell, start, -, rfl⟩ := build_eq_ok_iff.mp hbuild
  exact state?_isSome.mpr (hwell.targets state (List.mem_of_find?_eq_some hstate) t
    (List.mem_of_getElem? ht))

/-- States in the order in which they are added, the initial ones marked. -/
theorem Drafted.of_marked (marked : List (State × Bool)) :
    Drafted (marked.map Prod.fst) ((marked.reverse.find? fun s => s.2).map fun s => s.1.id) := by
  induction marked using List.reverseRecOn with
  | nil => exact .empty
  | append_singleton marked last ih =>
    obtain ⟨state, mark⟩ := last
    cases mark with
    | true => simpa using Drafted.initial state ih
    | false => simpa using Drafted.state state ih

/-- A machine that a document describes was built. -/
theorem built_of_document {name : String} {j : Json} (h : ofDocument name j = .ok m) : m.Built := by
  simp only [ofDocument, bind, Except.bind] at h
  split at h
  · cases h
  split at h
  · cases h
  rename_i marked _
  unfold Reading.valid at h
  split at h
  · rename_i hbuild
    cases h
    exact ⟨_, _, _, _, .of_marked marked, hbuild⟩
  · cases h

end Machine

namespace MachineRun

/-- What the path of a run and the state it is in tell of each other. -/
structure Placed (r : MachineRun) : Prop where
  unstarted : r.status = .idle → r.state = none ∧ r.path = []
  leads : r.status ≠ .idle →
    ∃ id, r.state = some id ∧ r.machine.Leads r.machine.initial r.path id
  failure : r.viaFailure = (r.path.getLast?.map Step.viaFailure).getD false
  finished : r.status = .finished → ∃ state, r.active? = some state ∧ state.terminal = true

variable {r r' : MachineRun} {log : Log} {root : TaskId}

/-- What may come next in any course keeps the run in its place. -/
theorem Placed.course {c : Course} (h : r.Placed) (hp : r.toCourse.Pace log root c) :
    Placed { r with toCourse := c } := by
  cases hp with
  | weigh | rest | lose => exact ⟨h.unstarted, h.leads, h.failure, h.finished⟩
  | quit hr hstatus =>
    refine ⟨?_, fun _ => h.leads (by simp [hr]), h.failure, ?_⟩
    · rintro rfl
      simp at hstatus
    · rintro rfl
      simp at hstatus

/-- Each pace keeps the run of a machine that was built in its place. -/
theorem Placed.pace (h : r.Placed) (hbuilt : r.machine.Built) (hp : r.Pace log root r') :
    r'.Placed := by
  have hleads : r.status = .running →
      ∃ id, r.state = some id ∧ r.machine.Leads r.machine.initial r.path id :=
    fun hr => h.leads (by simp [hr])
  cases hp with
  | course hc => exact h.course hc
  | begin hr =>
    rw [arriving_declared (r := r.beginning) hbuilt.initial_isSome]
    exact ⟨fun hidle => (nomatch hidle), fun _ => ⟨_, rfl, .nil⟩, rfl, fun hf => (nomatch hf)⟩
  | reenter hr hlost hid =>
    obtain ⟨id, hid', hpath⟩ := hleads hr
    obtain rfl := Option.some.inj (hid.symm.trans hid')
    unfold arriving
    split
    · exact ⟨fun hidle => (nomatch hr.symm.trans hidle), fun _ => ⟨_, rfl, hpath⟩, h.failure,
        fun hf => (nomatch hr.symm.trans hf)⟩
    · exact ⟨fun hidle => (nomatch hidle), fun _ => ⟨_, hid, hpath⟩, h.failure,
        fun hf => (nomatch hf)⟩
  | settle hr hstep hmemo hid => exact ⟨h.unstarted, h.leads, h.failure, h.finished⟩
  | cross hr hstep hreplaced hactive ht =>
    obtain ⟨hid, hstate⟩ := state_of_active hactive
    obtain ⟨id, hid', hpath⟩ := hleads hr
    obtain rfl := Option.some.inj (hid.symm.trans hid')
    rw [arriving_declared (r := r.crossing _ _ _ _ _) (hbuilt.target_isSome hstate ht)]
    refine ⟨fun hidle => (nomatch hr.symm.trans hidle), fun _ => ⟨_, rfl, hpath.snoc _ hstate ht⟩, ?_,
      fun hf => (nomatch hr.symm.trans hf)⟩
    simp [reaching, crossing, Course.enterStep, Step.viaFailure]
  | finish hr hactive hterminal =>
    exact ⟨fun hidle => (nomatch hidle), fun _ => hleads hr, h.failure,
      fun _ => ⟨_, hactive, hterminal⟩⟩

theorem Reached.placed (h : r.Reached log root) (hbuilt : r.machine.Built) : r.Placed := by
  induction h with
  | new machine lane depth log root =>
    exact ⟨fun _ => ⟨rfl, rfl⟩, fun hne => absurd rfl hne, rfl, fun hf => (nomatch hf)⟩
  | pace _ hp ih =>
    rw [hp.machine_eq] at hbuilt
    exact (ih hbuilt).pace hbuilt hp
  | hear e _ ih => exact ih hbuilt

/-- Whatever a machine goes through by paces, it is a machine in its place. -/
theorem Placed.paces {e : Engine} (h : r.Placed) (hbuilt : r.machine.Built)
    (hp : Engine.Paces log root (.machine r) e) :
    ∃ r', e = .machine r' ∧ r'.machine = r.machine ∧ r'.Placed := by
  induction hp with
  | refl => exact ⟨r, rfl, rfl, h⟩
  | tail _ hpace ih =>
    obtain ⟨r₁, rfl, hmachine, hplaced⟩ := ih
    cases hpace with
    | machine hpace =>
      exact ⟨_, rfl, hpace.machine_eq.trans hmachine, hplaced.pace (hmachine ▸ hbuilt) hpace⟩

/-- A completion tells of the terminal state where a machine ended and of the way there. It tells of
a failure exactly if the last transition does. -/
structure EndsIn (m : Machine) (completion : Completion) (state : State) : Prop where
  declared : m.state? state.id = some state
  terminal : state.terminal = true
  ending : completion.ending = .state state.id
  path : m.Leads m.initial completion.path state.id
  kind : completion.kind = .failureRecovered ↔
    ∃ record, completion.path.getLast? = some record ∧ record.viaFailure = true

theorem Placed.endsIn (h : r.Placed) (hf : r.status = .finished) {completion : Completion}
    (hc : r.completion? = some completion) : ∃ state, r.state = some state.id ∧
      completion.path = r.path ∧ EndsIn r.machine completion state := by
  obtain ⟨state, hactive, hterminal⟩ := h.finished hf
  obtain ⟨hid, hstate⟩ := state_of_active hactive
  obtain ⟨id, hid', hpath⟩ := h.leads (by simp [hf])
  obtain rfl := Option.some.inj (hid.symm.trans hid')
  rw [completion?, hid] at hc
  cases hc
  refine ⟨state, hid, rfl, hstate, hterminal, rfl, hpath, ?_⟩
  show r.kind = _ ↔ _
  unfold Course.kind
  rw [h.failure]
  show _ ↔ ∃ record, r.path.getLast? = some record ∧ record.viaFailure = true
  cases r.path.getLast? with
  | none => simp
  | some record => cases hvia : record.viaFailure <;> simp [hvia]

end MachineRun

end Conductor
