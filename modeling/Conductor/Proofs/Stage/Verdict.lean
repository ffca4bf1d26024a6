import Conductor.Proofs.Guard.Stability
import Conductor.Proofs.Stage.Attention
import Conductor.Proofs.Stage.Kept

/-!
Guards on a stage. A guard is evaluated against the values that its variables have there, so its truth
is the one that the verdicts on its leaves give it, whatever variables are read on the way.

As time goes on, what is pending can be decided. What was decided stays: an event that was seen has
been seen, and a task that has ended emits no more. Only a variable can take a verdict back.
-/

namespace Conductor

/-- An event of a task tells the plan nothing about anyone's arguments. -/
theorem Plan.emit_argument? {p q : Plan} {task : TaskId} {event : EventName}
    {payload : Option Value} (h : p.emit task event payload = .ok q) (id : TaskId) :
    q.argument? id = p.argument? id := by
  obtain rfl := emit_eq h
  funext name
  have htask : Plan.task? (({ p with emitted := (task, event) :: p.emitted }).observe
      ⟨task, event, payload⟩) id = if id = task then
        (p.task? id).map fun t => { t with state := next t.state event } else p.task? id :=
    Dict.get?_modify ..
  rw [argument?, argument?, htask]
  split
  · cases p.task? id <;> rfl
  · rfl

namespace Stage

variable {s s' s'' : Stage} {focus : Focus} {memo : Memo}

/-- What a guard is decided against are the log and the root of the stage, and the variables as they
are read there. -/
theorem view_eq (s : Stage) (g : Guard) (focus : Focus) : (s.view g focus).1 =
    ⟨s.log, s.root, focus.task, focus.since, (readAll g.vars .empty s).1⟩ := by
  have hmoves : s.Calms .model false _ := view_calms s g focus
  have hlog : (s.view g focus).1.log = s.log := (Kept.moves hmoves.moves).log
  have hroot : (s.view g focus).1.root = s.root := congrArg Handle.id (Kept.moves hmoves.moves).root
  rw [← hlog, ← hroot]
  rfl

/-- Decides a leaf on a stage. -/
def decide (s : Stage) (focus : Focus) : Leaf → Truth
  | .emitted ref event =>
    match s.refers? focus ref with
    | some task =>
      if s.log.occurred task event focus.since then .yes
      else if s.log.finished task focus.since then .no
      else .pending
    | none => .pending
  | .equals name value =>
    match s.look name with
    | some held => .ofBool (held == value)
    | none => .pending

/-- The verdict on a leaf: as it is in the memo, or else as it is decided. -/
def verdict (s : Stage) (focus : Focus) (memo : Memo) (l : Leaf) : Truth :=
  ((memo.lookup l).map Truth.ofBool).getD (s.decide focus l)

theorem decide_view (s : Stage) (focus : Focus) {g : Guard} {l : Leaf} (h : l ∈ g.allLeaves) :
    l.decide (s.view g focus).1 = s.decide focus l := by
  cases l with
  | emitted ref event =>
    have htask := view_task? s focus h
    have hlog : (s.view g focus).1.log = s.log := congrArg View.log (s.view_eq g focus)
    have hsince : (s.view g focus).1.since = focus.since := rfl
    cases href : s.refers? focus ref with
    | none => simp only [Leaf.decide, decide, htask, href]
    | some task => simp only [Leaf.decide, decide, htask, href, hlog, hsince]
  | equals name value =>
    have hvalue := view_vars s focus (g.mem_vars h rfl)
    cases hlook : s.look name with
    | none => simp only [Leaf.decide, decide, hvalue, hlook]
    | some held => simp only [Leaf.decide, decide, hvalue, hlook]

/-- A leaf that reads no variable is decided alike whatever variables were read. -/
theorem decide_fixed (s : Stage) (g : Guard) (focus : Focus) {l : Leaf} (h : l.varName? = none) :
    l.decide (s.view g focus).1 = s.decide focus l := by
  rw [view_eq]
  cases l with
  | equals => cases h
  | emitted ref event =>
    cases ref with
    | held => cases h
    | current | root => rfl

/-- Evaluating a guard comes to its truth under the verdicts on its leaves. -/
theorem evaluate_eq_weigh (s : Stage) (g : Guard) (focus : Focus) (memo : Memo) :
    (s.evaluate g focus memo).1 = g.weigh (s.verdict focus memo) := by
  have heval : (s.evaluate g focus memo).1 = g.weigh (Leaf.verdict (s.view g focus).1 memo) :=
    g.evaluate_eq_weigh _ memo
  rw [heval]
  refine g.weigh_congr fun l hl => ?_
  rw [Leaf.verdict_eq, s.decide_view focus hl]
  rfl

/-- Two stages have the same to decide guards by. -/
structure Agrees (s s' : Stage) : Prop where
  log : s'.log = s.log
  root : s'.root = s.root
  look : ∀ name, s'.look name = s.look name

namespace Agrees

theorem refl (s : Stage) : s.Agrees s := ⟨rfl, rfl, fun _ => rfl⟩

theorem trans (h : s.Agrees s') (h' : s'.Agrees s'') : s.Agrees s'' :=
  ⟨h'.log.trans h.log, h'.root.trans h.root, fun name => (h'.look name).trans (h.look name)⟩

theorem decide (h : s.Agrees s') (focus : Focus) : s'.decide focus = s.decide focus := by
  funext l
  cases l with
  | emitted ref event =>
    have href : s'.refers? focus ref = s.refers? focus ref := by
      cases ref with
      | current => rfl
      | root => simp only [refers?, h.root]
      | held name => simp only [refers?, h.look]
    simp only [Stage.decide, href, h.log]
  | equals name value => simp only [Stage.decide, h.look]

theorem verdict (h : s.Agrees s') (focus : Focus) (memo : Memo) :
    s'.verdict focus memo = s.verdict focus memo := by
  funext l
  rw [Stage.verdict, Stage.verdict, h.decide]

theorem evaluate (s : Stage) (g : Guard) (focus : Focus) (memo : Memo) :
    s.Agrees (s.evaluate g focus memo).2.2 where
  log := by
    have hmoves : s.Calms .model false _ := evaluate_calms s g focus memo
    exact (Kept.moves hmoves.moves).log
  root := congrArg (fun slots => slots.root.id) (view_reads s g focus).slots
  look := (view_reads s g focus).look

theorem emitOnRoot {event : EventName} {payload : Option Value}
    (h : s.emitOnRoot event payload = (.ok (), s')) : s.Agrees s' := by
  unfold Stage.emitOnRoot at h
  split at h
  · cases h
  · rename_i plan hplan
    cases h
    refine ⟨rfl, rfl, fun name => ?_⟩
    show s.scopes.look (plan.argument? s.root) name = s.look name
    rw [Plan.emit_argument? hplan]
    rfl

end Agrees

/-- What an evaluation learns changes no verdict. -/
theorem verdict_learned (s : Stage) (g : Guard) (focus : Focus) (memo : Memo) :
    s.verdict focus (s.evaluate g focus memo).2.1 = s.verdict focus memo := by
  refine g.evaluate_keeps (v := (s.view g focus).1)
    (P := fun m => s.verdict focus m = s.verdict focus memo) (fun m l hm hn => ?_) memo rfl
  rw [← hm]
  funext k
  rw [verdict, verdict, Memo.lookup_learn]
  split
  · rename_i hlearned
    obtain ⟨hdecided, hvar, rfl⟩ := hlearned
    rw [hn, Option.map_some, Option.getD_some, Truth.ofBool_isTrue hdecided,
      s.decide_fixed g focus hvar]
    rfl
  · rfl

/-! ## What lasts -/

/-- What is left of a verdict on another stage: if the leaf reads a variable that has another value
there, it is open again. -/
def lasting (s s' : Stage) (focus : Focus) (memo : Memo) (l : Leaf) : Truth :=
  match l.varName? with
  | some name => if s'.look name = s.look name then s.verdict focus memo l else .pending
  | none => s.verdict focus memo l

/-- What a leaf was decided to be against a log stays, as long as no task that has ended goes on to
emit and the variable of the leaf keeps its value. -/
theorem decide_refines (hlog : s.log.Continues s'.log) (hroot : s'.root = s.root) {l : Leaf}
    (hlook : ∀ name, l.varName? = some name → s'.look name = s.look name) :
    (s'.decide focus l).Refines (s.decide focus l) := by
  cases l with
  | equals name value =>
    simp only [decide, hlook name rfl]
    exact .refl _
  | emitted ref event =>
    have hrefers : s'.refers? focus ref = s.refers? focus ref := by
      cases ref with
      | current => rfl
      | root => simp only [refers?, hroot]
      | held name => simp only [refers?, hlook name rfl]
    simp only [decide, hrefers]
    cases s.refers? focus ref with
    | none => exact .refl _
    | some task => exact Log.standing_refines hlog.extends fun hended => hlog.occurred_eq_false hended

theorem verdict_refines (hlog : s.log.Continues s'.log) (hroot : s'.root = s.root) (l : Leaf) :
    (s'.verdict focus memo l).Refines (s.lasting s' focus memo l) := by
  have hkept (hlook : ∀ name, l.varName? = some name → s'.look name = s.look name) :
      (s'.verdict focus memo l).Refines (s.verdict focus memo l) := by
    unfold verdict
    cases memo.lookup l with
    | some b => exact .refl _
    | none => exact decide_refines hlog hroot hlook
  unfold lasting
  cases hvar : l.varName? with
  | none =>
    refine hkept fun name hname => ?_
    rw [hvar] at hname
    cases hname
  | some name =>
    by_cases hlook : s'.look name = s.look name
    · simp only [hlook, if_true]
      refine hkept fun other hother => ?_
      obtain rfl := Option.some.inj (hvar.symm.trans hother)
      exact hlook
    · simp only [hlook, if_false]
      exact .inl rfl

/-- A guard that what lasts of the verdicts rules out stays ruled out. -/
theorem evaluate_eq_no (hlog : s.log.Continues s'.log) (hroot : s'.root = s.root) {g : Guard}
    (h : g.weigh (s.lasting s' focus memo) = .no) : (s'.evaluate g focus memo).1 = .no := by
  rw [evaluate_eq_weigh]
  exact (g.weigh_refines fun l _ => verdict_refines hlog hroot l).eq_no h

/-- All of a verdict lasts, unless it was decided by a variable that has another value now. -/
theorem lasting_eq_verdict {l : Leaf} (h : ∀ name, l.varName? = some name →
    (s.verdict focus memo l).isDecided = true → s'.look name = s.look name) :
    s.lasting s' focus memo l = s.verdict focus memo l := by
  unfold lasting
  split
  · rename_i name hvar
    split
    · rfl
    · rename_i hlook
      cases hverdict : s.verdict focus memo l with
      | pending => rfl
      | yes | no => exact absurd (h name hvar (by rw [hverdict]; rfl)) hlook
  · rfl

end Stage

end Conductor
