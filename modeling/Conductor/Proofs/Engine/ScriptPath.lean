import Conductor.Proofs.Engine.Histories

/-!
The path of a script. It has a record for every instruction before the one that is active or comes
next, in their order, and nothing else. The history of the run says where each record comes from: the
instruction was skipped, or it was entered and left, and the record tells of a failure exactly if the
task of the instruction failed in between. A run that starts anew starts with an empty path, and an
instruction that is entered again has no record yet.
-/

namespace Conductor

namespace ScriptRun

/-- A mark other than the beginning of a run and the entry of one instruction. -/
def Mark.IsAfter (position : Nat) (m : Mark) : Prop :=
  m ≠ .begun ∧ ∀ task, m ≠ .entered position task

/-- How an instruction came by its record on the path. If it was not skipped, then it was entered,
for the last time, and left, and only events were recorded in between. -/
inductive Passed (history : List Mark) (position : Nat) (i : Instruction) : Step → Prop where
  | skipped {before after : List Mark} : history = before ++ .skipped position :: after →
    (∀ m ∈ after, m.IsAfter position) →
    Passed history position i (.skipped position i.label)
  | advanced {before after : List Mark} {events : List Event} {task : Option TaskId} {via : Bool} :
    history = before ++ .entered position task :: (events.map .heard ++ .left position :: after) →
    (∀ m ∈ after, m.IsAfter position) →
    task.isSome = i.source.isSome →
    (via = true ↔ ∃ e ∈ events, task = some e.task ∧ e.name = .failed) →
    Passed history position i (.advanced position i.label task via)

/-- A path has its records from the history. -/
def Follows (script : Script) (history : List Mark) (path : List Step) : Prop :=
  ∀ position record, path[position]? = some record →
    ∃ i, script.instructions[position]? = some i ∧ Passed history position i record

/-- The last that the history tells is that an instruction was entered, in the given step, and the
events since then. -/
structure Within (script : Script) (pc : Nat) (log : Log) (history : List Mark) (step : ActiveStep)
    (events : List Event) : Prop where
  entered : ∃ before : List Mark,
    history = before ++ .entered pc (step.task.map Handle.id) :: events.map .heard
  opened : step.since ≤ log.cursor
  window : log.window step.since = events.reverse
  task : ∃ i, script.instructions[pc]? = some i ∧ step.task.isSome = i.source.isSome

/-- What the path of a run and its history tell of each other. -/
structure Accounted (r : ScriptRun) (log : Log) (history : List Mark) : Prop where
  length : r.path.length = r.pc
  follows : Follows r.script history r.path
  failure : r.viaFailure = r.path.any Step.viaFailure
  active : ∀ step, r.step = some step → r.replaced = false →
    ∃ events, Within r.script r.pc log history step events
  finished : r.status = .finished → r.script.instructions.length ≤ r.pc

variable {r r' : ScriptRun} {log : Log} {root : TaskId} {history marks : List Mark}
  {script : Script} {path : List Step} {i : Instruction} {record : Step} {step : ActiveStep}
  {events : List Event} {position pc : Nat}

theorem Passed.append (h : Passed history position i record)
    (hm : ∀ m ∈ marks, m.IsAfter position) : Passed (history ++ marks) position i record := by
  have hafter : ∀ {after : List Mark}, (∀ m ∈ after, m.IsAfter position) →
      ∀ m ∈ after ++ marks, m.IsAfter position :=
    fun ha => List.forall_mem_append.mpr ⟨ha, hm⟩
  cases h with
  | @skipped before after hh ha =>
    have hsplit : history ++ marks = before ++ .skipped position :: (after ++ marks) := by simp [hh]
    exact .skipped hsplit (hafter ha)
  | @advanced before after events task _ hh ha htask hvia =>
    have hsplit : history ++ marks = before ++ .entered position task ::
        (events.map .heard ++ .left position :: (after ++ marks)) := by simp [hh]
    exact .advanced hsplit (hafter ha) htask hvia

theorem Follows.append (h : Follows script history path)
    (hm : ∀ m ∈ marks, ∀ position < path.length, m.IsAfter position) :
    Follows script (history ++ marks) path := by
  intro position record hrecord
  obtain ⟨i, hi, hpassed⟩ := h position record hrecord
  obtain ⟨hlt, -⟩ := List.getElem?_eq_some_iff.mp hrecord
  exact ⟨i, hi, hpassed.append fun m hmem => hm m hmem position hlt⟩

/-- The path goes on with a record of the instruction that comes next. -/
theorem Follows.snoc (h : Follows script history path) (hlength : path.length = pc)
    (hi : script.instructions[pc]? = some i) (hrecord : Passed history pc i record) :
    Follows script history (path ++ [record]) := by
  subst hlength
  intro position other hother
  rw [List.getElem?_append] at hother
  split at hother
  · exact h position other hother
  · rename_i hge
    obtain ⟨hlt, rfl⟩ := List.getElem?_eq_some_iff.mp hother
    obtain rfl : position = path.length := by
      rw [List.length_singleton] at hlt
      omega
    exact ⟨i, hi, by simpa using hrecord⟩

theorem failed_iff (h : log.window step.since = events.reverse) :
    Course.passedFailure step log = true ↔
      ∃ e ∈ events, step.task.map Handle.id = some e.task ∧ e.name = .failed := by
  unfold Course.passedFailure
  cases step.task with
  | none => simp
  | some task =>
    show log.failed task.id step.since = true ↔ _
    rw [Log.failed_eq_any_window, h, List.any_eq_true]
    constructor
    · rintro ⟨e, he, htest⟩
      obtain ⟨htask, hname⟩ : e.task = task.id ∧ e.name = .failed := by
        simpa [EventName.isFailure] using htest
      exact ⟨e, List.mem_reverse.mp he, congrArg some htask.symm, hname⟩
    · rintro ⟨e, he, htask, hname⟩
      exact ⟨e, List.mem_reverse.mpr he, by simp [EventName.isFailure, hname, Option.some.inj htask]⟩

theorem Within.hear (h : Within script pc log history step events) (e : Event) :
    Within script pc (log.record e) (history ++ [.heard e]) step (events ++ [e]) where
  entered := by
    obtain ⟨before, hbefore⟩ := h.entered
    exact ⟨before, by simp [hbefore]⟩
  opened := Nat.le_succ_of_le h.opened
  window := by
    rw [Log.window_record, if_pos h.opened, h.window]
    simp
  task := h.task

/-- An instruction was just entered. -/
theorem Within.now {task : Option Handle} (hi : script.instructions[pc]? = some i)
    (htask : task.isSome = i.source.isSome) (key : SlotKey) :
    Within script pc log (history ++ [.entered pc (task.map Handle.id)]) ⟨key, task, log.cursor⟩
      [] where
  entered := ⟨history, rfl⟩
  opened := Nat.le_refl _
  window := by simp [Log.window]
  task := ⟨i, hi, htask⟩

/-- The record of an instruction that is left. -/
theorem Within.passed (h : Within script pc log history step events)
    (hi : script.instructions[pc]? = some i) :
    Passed (history ++ [.left pc]) pc i (.advanced pc i.label (step.task.map Handle.id)
      (Course.passedFailure step log)) := by
  obtain ⟨before, hbefore⟩ := h.entered
  obtain ⟨i', hi', htask⟩ := h.task
  obtain rfl := Option.some.inj (hi.symm.trans hi')
  have hsplit : history ++ [.left pc] = before ++ .entered pc (step.task.map Handle.id) ::
      (events.map .heard ++ .left pc :: []) := by simp [hbefore]
  refine .advanced hsplit (by simp) ?_ (failed_iff h.window)
  rw [Option.isSome_map, htask]

/-- What may come next in any course leaves no records. -/
theorem Accounted.course {c : Course} (h : r.Accounted log history)
    (hp : r.toCourse.Pace log root c) : Accounted { r with toCourse := c } log history := by
  cases hp with
  | weigh => exact ⟨h.length, h.follows, h.failure, h.active, h.finished⟩
  | quit hr hstatus =>
    refine ⟨h.length, h.follows, h.failure, fun _ hs => (nomatch hs), ?_⟩
    rintro rfl
    simp at hstatus
  | rest => exact ⟨h.length, h.follows, h.failure, fun _ hs => (nomatch hs), h.finished⟩
  | lose =>
    exact ⟨h.length, h.follows, h.failure, fun _ _ hreplaced => (nomatch hreplaced), h.finished⟩

/-- Each pace keeps the account. -/
theorem Accounted.pace (h : r.Accounted log history) (hp : r.Pace log root marks r') :
    r'.Accounted log (history ++ marks) := by
  cases hp with
  | course hc =>
    rw [List.append_nil]
    exact h.course hc
  | begin hr =>
    exact ⟨rfl, fun _ _ hr => (nomatch hr), rfl, fun _ hs => (nomatch hs), fun hf => (nomatch hf)⟩
  | vacate _ =>
    rw [List.append_nil]
    exact ⟨h.length, h.follows, h.failure, fun _ hs => (nomatch hs), h.finished⟩
  | prepare hr hstep =>
    rw [List.append_nil]
    exact ⟨h.length, h.follows, h.failure, fun _ hs => (nomatch hstep.symm.trans hs), h.finished⟩
  | @skip i hr hstep hi =>
    have hafter : ∀ m ∈ [Mark.skipped r.pc], ∀ position < r.path.length, m.IsAfter position := by
      simp [Mark.IsAfter]
    have hpassed : Passed (history ++ [.skipped r.pc]) r.pc i (.skipped r.pc i.label) :=
      .skipped rfl (by simp)
    refine ⟨by simp [h.length], (h.follows.append hafter).snoc h.length hi hpassed, ?_,
      fun _ hs => (nomatch hstep.symm.trans hs), fun hf => (nomatch hr.symm.trans hf)⟩
    simp [h.failure, Step.viaFailure]
  | @enter i task hr hstep hmemo hi htask =>
    have hafter : ∀ m ∈ [Mark.entered r.pc (task.map Handle.id)], ∀ position < r.path.length,
        m.IsAfter position := by
      rw [h.length]
      intro m hm position hlt
      obtain rfl := List.mem_singleton.mp hm
      exact ⟨Mark.noConfusion, fun _ heq => by cases heq; exact Nat.lt_irrefl _ hlt⟩
    refine ⟨h.length, h.follows.append hafter, h.failure, ?_, fun hf => (nomatch hr.symm.trans hf)⟩
    rintro _ ⟨⟩ -
    exact ⟨[], .now hi htask _⟩
  | @leave i step hr hstep hreplaced hi =>
    obtain ⟨events, hwithin⟩ := h.active step hstep hreplaced
    have hafter : ∀ m ∈ [Mark.left r.pc], ∀ position < r.path.length, m.IsAfter position := by
      simp [Mark.IsAfter]
    refine ⟨by simp [ScriptRun.leaving, h.length],
      (h.follows.append hafter).snoc h.length hi (hwithin.passed hi), ?_,
      fun _ hs => (nomatch hs), fun hf => (nomatch hr.symm.trans hf)⟩
    simp [ScriptRun.leaving, h.failure, Step.viaFailure]
  | finish hr hpc =>
    rw [List.append_nil]
    exact ⟨h.length, h.follows, h.failure, fun _ hs => (nomatch hs), fun _ => hpc⟩

theorem Accounted.hear (h : r.Accounted log history) (e : Event) :
    r.Accounted (log.record e) (history ++ [.heard e]) where
  length := h.length
  follows := h.follows.append (by simp [Mark.IsAfter])
  failure := h.failure
  active := fun step hstep hreplaced => by
    obtain ⟨events, hwithin⟩ := h.active step hstep hreplaced
    exact ⟨events ++ [e], hwithin.hear e⟩
  finished := h.finished

theorem Traced.accounted (h : r.Traced log root history) : r.Accounted log history := by
  induction h with
  | new script lane depth log root =>
    exact ⟨rfl, fun _ _ hr => (nomatch hr), rfl, fun _ hs => (nomatch hs), fun hf => (nomatch hf)⟩
  | pace _ hp ih => exact ih.pace hp
  | hear e _ ih => exact ih.hear e

/-- A completion tells of a whole script, and of a failure exactly if its path does. -/
structure Covers (completion : Completion) (script : Script) : Prop where
  length : completion.path.length = script.instructions.length
  ending : completion.ending = .scriptEnd script.instructions.length
  kind : completion.kind = .failureRecovered ↔
    ∃ pc label task, .advanced pc label task true ∈ completion.path

/-- Only an instruction that was left has a record of a failure. -/
theorem Follows.failed_iff (h : Follows script history path) :
    path.any Step.viaFailure = true ↔ ∃ pc label task, .advanced pc label task true ∈ path := by
  rw [List.any_eq_true]
  constructor
  · rintro ⟨record, hmem, hvia⟩
    obtain ⟨position, hposition⟩ := List.mem_iff_getElem?.mp hmem
    obtain ⟨i, -, hpassed⟩ := h position record hposition
    cases hpassed with
    | skipped => cases hvia
    | @advanced _ _ _ task via =>
      obtain rfl : via = true := hvia
      exact ⟨position, i.label, task, hmem⟩
  · rintro ⟨pc, label, task, hmem⟩
    exact ⟨_, hmem, rfl⟩

theorem Follows.length_le (h : Follows script history path) :
    path.length ≤ script.instructions.length := by
  refine Nat.le_of_not_lt fun hlt => ?_
  obtain ⟨i, hi, -⟩ := h script.instructions.length _ (List.getElem?_eq_getElem hlt)
  obtain ⟨hlt', -⟩ := List.getElem?_eq_some_iff.mp hi
  exact Nat.lt_irrefl _ hlt'

theorem Accounted.covers (h : r.Accounted log history) (hf : r.status = .finished) :
    Covers r.completion r.script where
  length := by
    refine Nat.le_antisymm h.follows.length_le ?_
    show _ ≤ r.path.length
    rw [h.length]
    exact h.finished hf
  ending := rfl
  kind := by
    refine Iff.trans ?_ h.follows.failed_iff
    rw [← h.failure]
    show r.kind = _ ↔ _
    unfold Course.kind
    cases r.viaFailure <;> simp

end ScriptRun

end Conductor
