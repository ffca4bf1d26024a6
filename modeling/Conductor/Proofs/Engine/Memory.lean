import Conductor.Proofs.Engine.Histories

/-!
What the memo of a step is worth. A leaf is kept as it was decided against an earlier log of the same
step, and the log has only grown since. What was seen then is seen now. What was ruled out then, as
the task had ended without it, is ruled out now unless the task emitted it after all.
-/

namespace Conductor

/-- The task of a reference that stands for the same task throughout a step; the root is given. -/
def TaskRef.fixed? (id : TaskId) (focus : Focus) : TaskRef → Option TaskId
  | current => focus.task
  | root => some id
  | held _ => none

/-- A leaf that can be kept is about a fixed task. It is true if the task emitted the event, and else
the task has ended. -/
theorem Leaf.fixed_of_decided {v : View} {l : Leaf} (hvar : l.varName? = none)
    (hd : (l.decide v).isDecided = true) : ∃ ref event task, l = .emitted ref event ∧
      ref.fixed? v.root ⟨v.current, v.since⟩ = some task ∧
      v.log.occurred task event v.since = (l.decide v).isTrue ∧
      ((l.decide v).isTrue = false → v.log.finished task v.since = true) := by
  cases l with
  | equals => cases hvar
  | emitted ref event =>
    have href : v.task? ref = ref.fixed? v.root ⟨v.current, v.since⟩ := by
      cases ref with
      | held => cases hvar
      | current | root => rfl
    cases htask : v.task? ref with
    | none => simp [decide, htask, Truth.isDecided] at hd
    | some task =>
      rw [decide_emitted htask] at hd ⊢
      refine ⟨ref, event, task, rfl, href.symm.trans htask, ?_⟩
      cases ho : v.log.occurred task event v.since with
      | true => exact ⟨rfl, Bool.noConfusion⟩
      | false =>
        cases hf : v.log.finished task v.since with
        | true => exact ⟨rfl, fun _ => rfl⟩
        | false => simp [ho, hf, Truth.isDecided] at hd

namespace Stage

variable {s : Stage} {focus : Focus}

theorem refers_of_fixed {ref : TaskRef} {task : TaskId}
    (h : ref.fixed? s.root focus = some task) : s.refers? focus ref = some task := by
  cases ref with
  | held => cases h
  | current | root => exact h

/-- The event of a leaf came when the task of the leaf had ended without it. -/
def Late (s : Stage) (focus : Focus) (l : Leaf) : Prop :=
  ∃ ref event task, l = .emitted ref event ∧ s.refers? focus ref = some task ∧
    s.log.Belated task event focus.since

end Stage

namespace Memo

/-- Whatever a memo has was decided so in the same step, by what was recorded then. -/
def Kept (log : Log) (root : TaskId) (focus : Focus) (m : Memo) : Prop :=
  ∀ l b, m.lookup l = some b → ∃ ref event task, l = .emitted ref event ∧
    ref.fixed? root focus = some task ∧ ∃ early : Log, early.Extends log ∧
      early.occurred task event focus.since = b ∧
      (b = false → early.finished task focus.since = true)

variable {log log' : Log} {root : TaskId} {focus : Focus} {m : Memo} {s : Stage}

theorem Kept.empty (log : Log) (root : TaskId) (focus : Focus) : Memo.empty.Kept log root focus :=
  fun _ _ h => (nomatch h)

theorem Kept.later (h : m.Kept log root focus) (hlog : log.Extends log') :
    m.Kept log' root focus := by
  intro l b hl
  obtain ⟨ref, event, task, rfl, htask, early, hearly, hdecided⟩ := h l b hl
  exact ⟨ref, event, task, rfl, htask, early, hearly.trans hlog, hdecided⟩

theorem Kept.evaluate (h : m.Kept log root focus) (g : Guard) (vars : Dict String Value) :
    (g.evaluate ⟨log, root, focus.task, focus.since, vars⟩ m).2.Kept log root focus := by
  refine Guard.evaluate_keeps (fun m l hm _ k b hk => ?_) g m h
  rw [lookup_learn] at hk
  split at hk
  · rename_i hlearned
    obtain ⟨hdecided, hvar, rfl⟩ := hlearned
    cases hk
    obtain ⟨ref, event, task, rfl, htask, hnow⟩ := Leaf.fixed_of_decided hvar hdecided
    exact ⟨ref, event, task, rfl, htask, log, .refl log, hnow⟩
  · exact hm k b hk

/-- A memo makes a difference to a leaf exactly if it has the leaf as ruled out and the event came
late. -/
theorem Kept.verdict_ne_iff (h : m.Kept s.log s.root focus) (l : Leaf) :
    s.verdict focus m l ≠ s.verdict focus .empty l ↔ m.lookup l = some false ∧ s.Late focus l := by
  have hfresh : s.verdict focus .empty l = s.decide focus l := rfl
  rw [hfresh, Stage.verdict]
  cases hl : m.lookup l with
  | none => simp
  | some b =>
    obtain ⟨ref, event, task, rfl, hfixed, early, hearly, hoccurred, hfinished⟩ := h l b hl
    have htask := Stage.refers_of_fixed hfixed
    simp only [Stage.decide, htask]
    cases b with
    | true => simp [hearly.occurred hoccurred, Truth.ofBool]
    | false =>
      have hended := hearly.finished (hfinished rfl)
      cases hnow : s.log.occurred task event focus.since with
      | true =>
        have hbelated : s.log.Belated task event focus.since :=
          ⟨early, hearly, hfinished rfl, hoccurred, hnow⟩
        have hne : Truth.ofBool false ≠ .yes := Truth.noConfusion
        exact ⟨fun _ => ⟨rfl, ref, event, task, rfl, htask, hbelated⟩, fun _ => hne⟩
      | false =>
        rw [if_neg Bool.false_ne_true, if_pos hended]
        constructor
        · intro hne
          exact absurd rfl hne
        · rintro ⟨-, _, _, task', hl', htask', _, _, _, _, hoccurred'⟩
          cases hl'
          obtain rfl := Option.some.inj (htask.symm.trans htask')
          rw [hnow] at hoccurred'
          cases hoccurred'

end Memo

/-! ## Courses -/

/-- The memo of a step that has its task is one of that step. -/
def Course.Mindful (log : Log) (root : TaskId) (c : Course) : Prop :=
  ∀ step, c.step = some step → c.replaced = false → c.memo.Kept log root (step.focus c.last)

namespace Course

variable {log log' : Log} {root : TaskId} {c c' : Course}

theorem Mindful.of_no_step (h : c.step = none) : c.Mindful log root :=
  fun _ hs => (nomatch h.symm.trans hs)

theorem Mindful.of_empty (h : c.memo = .empty) : c.Mindful log root :=
  fun step _ _ => h ▸ .empty log root (step.focus c.last)

theorem Mindful.later (h : c.Mindful log root) (hlog : log.Extends log') : c.Mindful log' root :=
  fun step hs hreplaced => (h step hs hreplaced).later hlog

theorem Mindful.pace (h : c.Mindful log root) (hp : c.Pace log root c') : c'.Mindful log root := by
  cases hp with
  | @weigh step guard vars hs _ =>
    intro other ho hreplaced
    obtain rfl := Option.some.inj (hs.symm.trans ho)
    exact (h step hs hreplaced).evaluate guard vars
  | quit | rest => exact .of_no_step rfl
  | lose => exact fun _ _ hreplaced => (nomatch hreplaced)

end Course

theorem ScriptRun.Traced.mindful {r : ScriptRun} {log : Log} {root : TaskId} {history : List Mark}
    (h : r.Traced log root history) : r.toCourse.Mindful log root := by
  induction h with
  | new => exact .of_no_step rfl
  | hear e _ ih => exact ih.later (Log.extends_record _ e)
  | pace _ hp ih =>
    cases hp with
    | course hc => exact ih.pace hc
    | begin | vacate | leave | finish => exact .of_no_step rfl
    | prepare _ hstep => exact .of_no_step hstep
    | skip _ hstep => exact .of_no_step hstep
    | enter _ _ hmemo => exact .of_empty hmemo

theorem MachineRun.Reached.mindful {r : MachineRun} {log : Log} {root : TaskId}
    (h : r.Reached log root) : r.toCourse.Mindful log root := by
  induction h with
  | new => exact .of_no_step rfl
  | hear e _ ih => exact ih.later (Log.extends_record _ e)
  | pace _ hp ih =>
    cases hp with
    | course hc => exact ih.pace hc
    | begin | reenter | cross => exact .of_no_step (arriving_step ..)
    | finish => exact .of_no_step rfl
    | settle _ _ hmemo => exact .of_empty hmemo

theorem Engine.Run.mindful {lane : Lane} {e : Engine} {s : Stage} {n : Nat} (h : e.Run lane s n) :
    e.course.Mindful s.log s.root := by
  have hreached := h.reached
  cases e with
  | script r =>
    obtain ⟨history, htraced⟩ := hreached
    exact htraced.mindful
  | machine r => exact MachineRun.Reached.mindful hreached

end Conductor
