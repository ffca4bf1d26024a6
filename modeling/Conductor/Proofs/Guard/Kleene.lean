import Conductor.Proofs.Guard.Verdict

/-!
Evaluation is Kleene's logic. A memo that holds leaves only as they are decided makes no difference to
the truth of a guard, nor does it that evaluation stops early: what comes out is the meaning of the
guard, over all its members. What evaluation adds to such a memo is as good as what was there.

Since a conjunction and a disjunction mean the same when they are joined to a longer one, it makes no
difference either in which form two guards are put together.
-/

namespace Conductor

namespace Truth

@[simp] theorem and_yes (t : Truth) : t.and yes = t := by cases t <;> rfl

@[simp] theorem or_no (t : Truth) : t.or no = t := by cases t <;> rfl

end Truth

namespace Memo

variable {v : View} {m m' : Memo}

/-- Every leaf in the memo is there as it is decided against the view. -/
def Agrees (v : View) (m : Memo) : Prop :=
  ∀ l b, m.lookup l = some b → l.decide v = .ofBool b

/-- What one memo holds, the other one holds alike. -/
def Extends (m m' : Memo) : Prop := ∀ l b, m.lookup l = some b → m'.lookup l = some b

theorem Agrees.empty (v : View) : Memo.empty.Agrees v := fun _ _ h => (nomatch h)

theorem Learned.extends (h : Learned v m m') : m.Extends m' := by
  intro l b hl
  rcases h l with hsame | ⟨hnone, -, -⟩
  · rw [hsame, hl]
  · rw [hl] at hnone
    cases hnone

theorem Agrees.learned (hm : m.Agrees v) (h : Learned v m m') : m'.Agrees v := by
  intro l b hl
  rcases h l with hsame | ⟨-, hdecided, hlearned⟩
  · exact hm l b (hsame.symm.trans hl)
  · rw [hl] at hlearned
    rw [Option.some.inj hlearned, Truth.ofBool_isTrue hdecided]

/-- With such a memo every leaf is decided as without. -/
theorem Agrees.verdict (hm : m.Agrees v) : Leaf.verdict v m = Leaf.decide v := by
  funext l
  rw [Leaf.verdict_eq]
  cases hl : m.lookup l with
  | none => rfl
  | some b => exact (hm l b hl).symm

end Memo

namespace Guard

variable {v : View} {m : Memo}

theorem conjunction_append (v : View) (gs hs : List Guard) :
    conjunction v (gs ++ hs) = (conjunction v gs).and (conjunction v hs) := by
  induction gs with
  | nil => rw [List.nil_append, conjunction, Truth.yes_and]
  | cons g rest ih => rw [List.cons_append, conjunction, conjunction, ih, Truth.and_assoc]

theorem disjunction_append (v : View) (gs hs : List Guard) :
    disjunction v (gs ++ hs) = (disjunction v gs).or (disjunction v hs) := by
  induction gs with
  | nil => rw [List.nil_append, disjunction, Truth.no_or]
  | cons g rest ih => rw [List.cons_append, disjunction, disjunction, ih, Truth.or_assoc]

/-- Both guards mean the conjunction of the two, also where the first one takes in the second. -/
theorem denote_and (v : View) (g h : Guard) : (g.and h).denote v = (g.denote v).and (h.denote v) := by
  cases g with
  | all guards => simp only [Guard.and, denote, conjunction_append, conjunction, Truth.and_yes]
  | always | leaf | any | not => simp only [Guard.and, denote, conjunction, Truth.and_yes]

theorem denote_or (v : View) (g h : Guard) : (g.or h).denote v = (g.denote v).or (h.denote v) := by
  cases g with
  | any guards => simp only [Guard.or, denote, disjunction_append, disjunction, Truth.or_no]
  | always | leaf | all | not => simp only [Guard.or, denote, disjunction, Truth.or_no]

/-- With a memo that agrees with the view a guard comes to its meaning. -/
theorem evaluate_eq_denote (hm : m.Agrees v) (g : Guard) : (g.evaluate v m).1 = g.denote v := by
  rw [evaluate_eq_weigh, hm.verdict, denote_eq_weigh]

theorem evaluate_agrees (hm : m.Agrees v) (g : Guard) : (g.evaluate v m).2.Agrees v :=
  hm.learned (evaluate_learned v g m)

/-- Evaluation with a memo that agrees with the view comes to the meaning of the guard. It keeps what
the memo holds, and the memo goes on to agree. So two guards that are put together come to the
conjunction or the disjunction of what each of them comes to, with whatever such memos. -/
theorem evaluate_kleene (hm : m.Agrees v) (g : Guard) :
    (g.evaluate v m).1 = g.denote v ∧ m.Extends (g.evaluate v m).2 ∧ (g.evaluate v m).2.Agrees v ∧
      ∀ (h : Guard) (m₁ m₂ : Memo), m₁.Agrees v → m₂.Agrees v →
        ((g.and h).evaluate v m₁).1 = (g.evaluate v m).1.and (h.evaluate v m₂).1 ∧
        ((g.or h).evaluate v m₁).1 = (g.evaluate v m).1.or (h.evaluate v m₂).1 := by
  refine ⟨evaluate_eq_denote hm g, (evaluate_learned v g m).extends, evaluate_agrees hm g,
    fun h m₁ m₂ h₁ h₂ => ?_⟩
  rw [evaluate_eq_denote hm, evaluate_eq_denote h₁, evaluate_eq_denote h₁, evaluate_eq_denote h₂]
  exact ⟨denote_and v g h, denote_or v g h⟩

end Guard

/-! ## A sample -/

/-- The current task has succeeded, and the root said to go. -/
def View.surveying : View where
  log := (Log.empty.record ⟨⟨"task-2"⟩, .success, none⟩).record ⟨⟨"task-1"⟩, ⟨"go"⟩, none⟩
  root := ⟨"task-1"⟩
  current := some ⟨"task-2"⟩
  since := 0
  vars := .empty

/-- Either the current task goes on, or the root says to go and a helper succeeds. -/
def Guard.surveying : Guard :=
  .any [.not (.on .stop),
    .all [.leaf (.emitted .root ⟨"go"⟩), .leaf (.emitted (.held "helper") .success)]]

/-- That the current task has stopped is known from before. The helper is not known yet, so the guard
is pending, and also when the disjunction takes in a guard that is false. -/
theorem Guard.evaluate_kleene_surveying :
    let m := (Guard.evaluate .surveying (.on .stop) .empty).2
    m.lookup (.emitted .current .stop) = some true ∧ m.Agrees .surveying ∧
      (Guard.surveying.evaluate .surveying m).1 = .pending ∧
      ((Guard.surveying.or (.on .failed)).evaluate .surveying m).1 = .pending ∧
      ((Guard.surveying.and (.on .failed)).evaluate .surveying m).1 = .no := by
  intro m
  have hm : m.Agrees .surveying := Guard.evaluate_agrees (.empty _) _
  obtain ⟨hmeaning, -, -, hboth⟩ := Guard.evaluate_kleene hm Guard.surveying
  obtain ⟨hand, hor⟩ := hboth (.on .failed) m .empty hm (.empty _)
  have hpending : Guard.surveying.denote .surveying = .pending := by decide
  have hfailed : ((Guard.on .failed).evaluate .surveying .empty).1 = .no := by decide
  rw [hand, hor, hmeaning, hpending, hfailed]
  exact ⟨by decide, hm, rfl, rfl, rfl⟩

end Conductor
