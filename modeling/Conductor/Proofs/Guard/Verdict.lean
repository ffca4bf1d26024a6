import Conductor.Guard.Evaluation

/-!
Verdicts: the truth that the leaves of a guard have in an evaluation. A leaf that the memo knows
keeps the truth it was given there, any other is decided against the view, and what the evaluation
learns on its way changes no verdict. The truth of the guard is its meaning under these verdicts.
-/

namespace Conductor

namespace Truth

@[simp] theorem yes_and (t : Truth) : yes.and t = t := by cases t <;> rfl

@[simp] theorem no_or (t : Truth) : no.or t = t := by cases t <;> rfl

theorem and_assoc (a b c : Truth) : (a.and b).and c = a.and (b.and c) := by
  cases a <;> cases b <;> cases c <;> rfl

theorem or_assoc (a b c : Truth) : (a.or b).or c = a.or (b.or c) := by
  cases a <;> cases b <;> cases c <;> rfl

theorem and_of_isFalse {a : Truth} (h : a.isFalse = true) (b : Truth) : a.and b = a := by
  cases a with
  | no => rfl
  | yes | pending => cases h

theorem or_of_isTrue {a : Truth} (h : a.isTrue = true) (b : Truth) : a.or b = a := by
  cases a with
  | yes => rfl
  | no | pending => cases h

theorem ofBool_isTrue {t : Truth} (h : t.isDecided = true) : ofBool t.isTrue = t := by
  cases t with
  | yes | no => rfl
  | pending => cases h

/-- A truth is the same as another one unless that is still pending. -/
def Refines (fine coarse : Truth) : Prop := coarse = pending ∨ fine = coarse

theorem Refines.refl (t : Truth) : t.Refines t := .inr rfl

theorem Refines.and {a a' b b' : Truth} (ha : a'.Refines a) (hb : b'.Refines b) :
    (a'.and b').Refines (a.and b) := by
  rcases ha with rfl | rfl <;> rcases hb with rfl | rfl
  · exact .inl rfl
  · cases b' <;> cases a' <;> simp [Refines, Truth.and]
  · cases a' <;> cases b' <;> simp [Refines, Truth.and]
  · exact .inr rfl

theorem Refines.or {a a' b b' : Truth} (ha : a'.Refines a) (hb : b'.Refines b) :
    (a'.or b').Refines (a.or b) := by
  rcases ha with rfl | rfl <;> rcases hb with rfl | rfl
  · exact .inl rfl
  · cases b' <;> cases a' <;> simp [Refines, Truth.or]
  · cases a' <;> cases b' <;> simp [Refines, Truth.or]
  · exact .inr rfl

theorem Refines.not {a a' : Truth} (h : a'.Refines a) : a'.not.Refines a.not := by
  rcases h with rfl | rfl
  · exact .inl rfl
  · exact .inr rfl

theorem Refines.eq_no {a a' : Truth} (h : a'.Refines a) (hno : a = no) : a' = no := by
  rcases h with rfl | rfl
  · cases hno
  · exact hno

end Truth

namespace Guard

mutual

/-- The truth of a guard when the truth of every leaf is given. -/
def weigh (truth : Leaf → Truth) : Guard → Truth
  | always => .yes
  | leaf l => truth l
  | all guards => weighAll truth guards
  | any guards => weighAny truth guards
  | not guard => (weigh truth guard).not

def weighAll (truth : Leaf → Truth) : List Guard → Truth
  | [] => .yes
  | g :: rest => (weigh truth g).and (weighAll truth rest)

def weighAny (truth : Leaf → Truth) : List Guard → Truth
  | [] => .no
  | g :: rest => (weigh truth g).or (weighAny truth rest)

end

mutual

/-- The meaning of a guard is its truth when every leaf is decided by itself. -/
theorem denote_eq_weigh (v : View) : ∀ g : Guard, g.denote v = g.weigh (Leaf.decide v)
  | always => rfl
  | leaf _ => rfl
  | all guards => conjunction_eq_weighAll v guards
  | any guards => disjunction_eq_weighAny v guards
  | not guard => by simp only [denote, weigh, denote_eq_weigh v guard]

theorem conjunction_eq_weighAll (v : View) :
    ∀ gs : List Guard, conjunction v gs = weighAll (Leaf.decide v) gs
  | [] => rfl
  | g :: rest => by
    simp only [conjunction, weighAll, denote_eq_weigh v g, conjunction_eq_weighAll v rest]

theorem disjunction_eq_weighAny (v : View) :
    ∀ gs : List Guard, disjunction v gs = weighAny (Leaf.decide v) gs
  | [] => rfl
  | g :: rest => by
    simp only [disjunction, weighAny, denote_eq_weigh v g, disjunction_eq_weighAny v rest]

end

end Guard

namespace Guard

mutual

/-- A guard has the same truth wherever its leaves have. -/
theorem weigh_congr {truth truth' : Leaf → Truth} :
    ∀ g : Guard, (∀ l ∈ g.allLeaves, truth l = truth' l) → g.weigh truth = g.weigh truth'
  | always, _ => rfl
  | leaf l, h => h l (List.mem_singleton_self l)
  | all guards, h => weighAll_congr guards h
  | any guards, h => weighAny_congr guards h
  | not guard, h => by simp only [weigh, weigh_congr guard h]

theorem weighAll_congr {truth truth' : Leaf → Truth} : ∀ gs : List Guard,
    (∀ l ∈ allLeavesList gs, truth l = truth' l) → weighAll truth gs = weighAll truth' gs
  | [], _ => rfl
  | g :: rest, h => by
    simp only [weighAll, weigh_congr g fun l hl => h l (List.mem_append_left _ hl),
      weighAll_congr rest fun l hl => h l (List.mem_append_right _ hl)]

theorem weighAny_congr {truth truth' : Leaf → Truth} : ∀ gs : List Guard,
    (∀ l ∈ allLeavesList gs, truth l = truth' l) → weighAny truth gs = weighAny truth' gs
  | [], _ => rfl
  | g :: rest, h => by
    simp only [weighAny, weigh_congr g fun l hl => h l (List.mem_append_left _ hl),
      weighAny_congr rest fun l hl => h l (List.mem_append_right _ hl)]

end

mutual

/-- What is decided about a guard stays as it is when more of its leaves are decided. -/
theorem weigh_refines {fine coarse : Leaf → Truth} : ∀ g : Guard,
    (∀ l ∈ g.allLeaves, (fine l).Refines (coarse l)) → (g.weigh fine).Refines (g.weigh coarse)
  | always, _ => .refl _
  | leaf l, h => h l (List.mem_singleton_self l)
  | all guards, h => weighAll_refines guards h
  | any guards, h => weighAny_refines guards h
  | not guard, h => (weigh_refines guard h).not

theorem weighAll_refines {fine coarse : Leaf → Truth} : ∀ gs : List Guard,
    (∀ l ∈ allLeavesList gs, (fine l).Refines (coarse l)) →
      (weighAll fine gs).Refines (weighAll coarse gs)
  | [], _ => .refl _
  | g :: rest, h => (weigh_refines g fun l hl => h l (List.mem_append_left _ hl)).and
      (weighAll_refines rest fun l hl => h l (List.mem_append_right _ hl))

theorem weighAny_refines {fine coarse : Leaf → Truth} : ∀ gs : List Guard,
    (∀ l ∈ allLeavesList gs, (fine l).Refines (coarse l)) →
      (weighAny fine gs).Refines (weighAny coarse gs)
  | [], _ => .refl _
  | g :: rest, h => (weigh_refines g fun l hl => h l (List.mem_append_left _ hl)).or
      (weighAny_refines rest fun l hl => h l (List.mem_append_right _ hl))

end

end Guard

/-- The truth of a leaf in an evaluation. -/
def Leaf.verdict (v : View) (m : Memo) (l : Leaf) : Truth := (l.evaluate v m).1

theorem Leaf.verdict_eq (v : View) (m : Memo) (l : Leaf) :
    l.verdict v m = ((m.lookup l).map Truth.ofBool).getD (l.decide v) := by
  unfold verdict evaluate
  cases m.lookup l <;> rfl

namespace Memo

theorem lookup_learn (m : Memo) (l k : Leaf) (t : Truth) :
    (m.learn l t).lookup k =
      if t.isDecided ∧ l.varName? = none ∧ l = k then some t.isTrue else m.lookup k := by
  unfold learn
  by_cases hd : t.isDecided = true ∧ l.varName? = none
  · obtain ⟨ht, hv⟩ := hd
    by_cases hk : l = k
    · subst hk
      simp [lookup, ht, hv]
    · simp [lookup, ht, hv, hk]
  · split
    · rename_i h
      exact absurd (by simpa using h) hd
    · rw [if_neg fun h => hd ⟨h.1, h.2.1⟩]

/-- What one memo has beyond another was decided against the view. -/
def Learned (v : View) (m m' : Memo) : Prop :=
  ∀ l, m'.lookup l = m.lookup l ∨
    m.lookup l = none ∧ (l.decide v).isDecided = true ∧ m'.lookup l = some (l.decide v).isTrue

theorem Learned.refl (v : View) (m : Memo) : Learned v m m := fun _ => .inl rfl

theorem Learned.trans {v : View} {m m' m'' : Memo} (h : Learned v m m') (h' : Learned v m' m'') :
    Learned v m m'' := by
  intro l
  rcases h l with h₁ | ⟨hn, hd, h₁⟩
  · rcases h' l with h₂ | ⟨hn, hd, h₂⟩
    · exact .inl (h₂.trans h₁)
    · exact .inr ⟨h₁.symm.trans hn, hd, h₂⟩
  · rcases h' l with h₂ | ⟨hn', _, _⟩
    · exact .inr ⟨hn, hd, h₂.trans h₁⟩
    · rw [h₁] at hn'
      cases hn'

/-- What was learned against the view changes no verdict there. -/
theorem Learned.verdict {v : View} {m m' : Memo} (h : Learned v m m') :
    Leaf.verdict v m' = Leaf.verdict v m := by
  funext l
  rw [Leaf.verdict_eq, Leaf.verdict_eq]
  rcases h l with h | ⟨hn, hd, h⟩
  · rw [h]
  · rw [h, hn]
    exact Truth.ofBool_isTrue hd

theorem learned_learn {v : View} {m : Memo} {l : Leaf} (hm : m.lookup l = none) :
    Learned v m (m.learn l (l.decide v)) := by
  intro k
  rw [lookup_learn]
  split
  · rename_i h
    obtain ⟨hd, _, rfl⟩ := h
    exact .inr ⟨hm, hd, rfl⟩
  · exact .inl rfl

end Memo

namespace Guard

variable {v : View} {P : Memo → Prop}

mutual

/-- What a memo keeps whenever it learns a leaf that was decided against the view, it keeps through an
evaluation. -/
theorem evaluate_keeps (learns : ∀ m l, P m → m.lookup l = none → P (m.learn l (l.decide v))) :
    ∀ (g : Guard) (m : Memo), P m → P (g.evaluate v m).2
  | always, _, h => h
  | leaf l, m, h => by
    simp only [evaluate, Leaf.evaluate]
    cases hm : m.lookup l with
    | some b => exact h
    | none => exact learns m l h hm
  | all guards, m, h => evaluateAll_keeps learns guards .yes m h
  | any guards, m, h => evaluateAny_keeps learns guards .no m h
  | not guard, m, h => evaluate_keeps learns guard m h

theorem evaluateAll_keeps
    (learns : ∀ m l, P m → m.lookup l = none → P (m.learn l (l.decide v))) :
    ∀ (gs : List Guard) (sofar : Truth) (m : Memo), P m → P (evaluateAll v gs sofar m).2
  | [], _, _, h => h
  | g :: rest, sofar, m, h => by
    simp only [evaluateAll]
    split
    · exact h
    · exact evaluateAll_keeps learns rest _ _ (evaluate_keeps learns g m h)

theorem evaluateAny_keeps
    (learns : ∀ m l, P m → m.lookup l = none → P (m.learn l (l.decide v))) :
    ∀ (gs : List Guard) (sofar : Truth) (m : Memo), P m → P (evaluateAny v gs sofar m).2
  | [], _, _, h => h
  | g :: rest, sofar, m, h => by
    simp only [evaluateAny]
    split
    · exact h
    · exact evaluateAny_keeps learns rest _ _ (evaluate_keeps learns g m h)

end

/-- An evaluation only learns. -/
theorem evaluate_learned (v : View) (g : Guard) (m : Memo) : m.Learned v (g.evaluate v m).2 :=
  evaluate_keeps (fun _ _ h hn => h.trans (Memo.learned_learn hn)) g m (.refl v m)

mutual

/-- Evaluation from left to right, stopping early, comes to the truth of the guard under the
verdicts on all its leaves. -/
theorem evaluate_eq_weigh (v : View) :
    ∀ (g : Guard) (m : Memo), (g.evaluate v m).1 = g.weigh (Leaf.verdict v m)
  | always, _ => rfl
  | leaf _, _ => rfl
  | all guards, m => by
    simp only [evaluate, weigh, evaluateAll_eq_weighAll v guards .yes m, Truth.yes_and]
  | any guards, m => by
    simp only [evaluate, weigh, evaluateAny_eq_weighAny v guards .no m, Truth.no_or]
  | not guard, m => by simp only [evaluate, weigh, evaluate_eq_weigh v guard m]

theorem evaluateAll_eq_weighAll (v : View) : ∀ (gs : List Guard) (sofar : Truth) (m : Memo),
    (evaluateAll v gs sofar m).1 = sofar.and (weighAll (Leaf.verdict v m) gs)
  | [], sofar, m => by cases sofar <;> rfl
  | g :: rest, sofar, m => by
    simp only [evaluateAll, weighAll]
    split
    · rename_i h
      exact (Truth.and_of_isFalse h _).symm
    · rw [evaluateAll_eq_weighAll v rest, evaluate_eq_weigh v g m,
        (evaluate_learned v g m).verdict, Truth.and_assoc]

theorem evaluateAny_eq_weighAny (v : View) : ∀ (gs : List Guard) (sofar : Truth) (m : Memo),
    (evaluateAny v gs sofar m).1 = sofar.or (weighAny (Leaf.verdict v m) gs)
  | [], sofar, m => by cases sofar <;> rfl
  | g :: rest, sofar, m => by
    simp only [evaluateAny, weighAny]
    split
    · rename_i h
      exact (Truth.or_of_isTrue h _).symm
    · rw [evaluateAny_eq_weighAny v rest, evaluate_eq_weigh v g m,
        (evaluate_learned v g m).verdict, Truth.or_assoc]

end

end Guard

end Conductor
