import Conductor.Proofs.Session.Steps

/-!
Turns: the small steps in which a session takes a signal. Between two turns a fault may be in
hand: it was delivered, drawn from those that waited or left by a failed handler, and is not
settled yet. Starting, delivering and stopping are chains of turns, so what every turn preserves
holds after each of them.
-/

namespace Conductor

/-- A scene, and the fault that is in hand there. -/
structure Moment where
  hand : Option Fault
  scene : Scene

inductive Turn : Moment → Moment → Prop where
  | begin {c : Scene} : c.session.status = .created → Turn ⟨none, c⟩ ⟨none, c.begin⟩
  | cancel {c : Scene} : c.session.status = .created →
    Turn ⟨none, c⟩ ⟨none, c.map fun session => { session with status := .stopped }⟩
  | hear {c : Scene} (e : Event) : c.session.isRunning = true → Turn ⟨none, c⟩ ⟨none, c.hear e⟩
  | count {c : Scene} (f : Fault) : c.session.isRunning = true →
    Turn ⟨some f, c⟩
      ⟨some f, c.map fun session => { session with deliveries := session.deliveries + 1 }⟩
  /-- The normal model acts, while no handler runs. -/
  | model {c : Scene} {hand : Option Fault} {e : Engine} {s : Stage} :
    c.session.isRunning = true → c.session.faults.active = none →
    c.session.engine.Act c.stage e s → Turn ⟨hand, c⟩ ⟨hand, c.withEngine e s⟩
  /-- The active handler acts. -/
  | handler {c : Scene} {active : ActiveHandler} {e : Engine} {s : Stage} :
    c.session.isRunning = true → c.session.faults.active = some active →
    active.engine.Act c.stage e s → Turn ⟨none, c⟩ ⟨none, c.withHandler active e s⟩
  | unhandled {c : Scene} {f : Fault} : c.session.isRunning = true →
    Turn ⟨some f, c⟩ ⟨none, c.record (.fault f .unhandled none)⟩
  | queue {c : Scene} {f : Fault} : c.session.isRunning = true →
    c.session.faults.active.isSome = true → Turn ⟨some f, c⟩ ⟨none, c.enqueue f⟩
  /-- A waiting fault is taken up. -/
  | draw {c : Scene} {f : Fault} {rest : List Fault} : c.session.isRunning = true →
    c.session.faults.active = none → c.session.faults.pending = f :: rest →
    Turn ⟨none, c⟩ ⟨some f, c.withPending rest⟩
  /-- The active handler gives way to a fault. -/
  | displace {c : Scene} {f : Fault} {active : ActiveHandler} : c.session.isRunning = true →
    c.session.faults.active = some active →
    Turn ⟨some f, c⟩ ⟨some f, c.abandonHandler.2.record (.fault active.fault .dropped none)⟩
  | trigger {c : Scene} {f : Fault} {d : Disposition} (response : String) :
    c.session.isRunning = true → d = .triggered ∨ d = .preempted →
    Turn ⟨some f, c⟩ ⟨some f, c.record (.fault f d response)⟩
  | install {c : Scene} {f : Fault} (target : Target) : c.session.isRunning = true →
    c.session.faults.active = none →
    c.session.faults.response? target.table target.entry = some target.response →
    Turn ⟨some f, c⟩ ⟨none, c.install target f⟩
  | resolve {c : Scene} {active : ActiveHandler} (completion : Completion) :
    c.session.isRunning = true → c.session.faults.active = some active →
    Turn ⟨none, c⟩ ⟨none, c.resolved active completion⟩
  | escalate {c : Scene} {active : ActiveHandler} : c.session.isRunning = true →
    c.session.faults.active = some active →
    Turn ⟨none, c⟩ ⟨some active.fault, (c.escalate active).2⟩
  | exhaust {c : Scene} {f : Fault} : c.session.isRunning = true →
    Turn ⟨some f, c⟩ ⟨none, (c.exhaust f).2⟩
  | succeed {c : Scene} (completion : Completion) : c.session.isRunning = true →
    Turn ⟨none, c⟩ ⟨none, (c.succeed completion).2⟩
  | fail {c : Scene} (error : Error) : c.session.isRunning = true → error.isPlain = true →
    Turn ⟨none, c⟩ ⟨none, (c.fail error).2⟩
  | halt {c : Scene} (reason : String) : c.session.isRunning = true →
    Turn ⟨none, c⟩ ⟨none, (c.halt reason).2⟩

abbrev Turns : Moment → Moment → Prop := Relation.ReflTransGen Turn

theorem Turns.preserves {P : Moment → Prop} (hturn : ∀ m m', Turn m m' → P m → P m')
    {m m' : Moment} (h : Turns m m') (hm : P m) : P m' := by
  induction h with
  | refl => exact hm
  | tail _ ht ih => exact hturn _ _ ht ih

theorem Status.not_terminal {s : Status} (h : s.isRunning = true) : ¬ s.isTerminal = true :=
  fun ht => Status.not_running ht h

/-- A session that has ended takes no turns. -/
theorem Turn.not_terminal {m m' : Moment} (h : Turn m m') :
    ¬ m.scene.session.status.isTerminal = true := by
  cases h with
  | begin hc | cancel hc => simp [hc, Status.isTerminal]
  | hear _ hr | count _ hr | model hr | handler hr | unhandled hr | queue hr | draw hr
  | displace hr | trigger _ hr | install _ hr | resolve _ hr | escalate hr | exhaust hr
  | succeed _ hr | fail _ hr | halt _ hr => exact Status.not_terminal hr

/-! ## Handlers -/

namespace Scene

variable {c : Scene} {f : Fault}

theorem runModel_turns {act : Engine → Stage → Progress × Engine × Stage} {hand : Option Fault}
    (hr : c.session.isRunning = true) (ha : c.session.faults.active = none)
    (hact : ∀ (e : Engine) s, e.Act s (act e s).2.1 (act e s).2.2) :
    Turns ⟨hand, c⟩ ⟨hand, (c.runModel act).2⟩ :=
  .single (.model hr ha (hact c.session.engine c.stage))

theorem settleModel_turns (hr : c.session.isRunning = true) {p : Progress} (hp : p.Plain) :
    Turns ⟨none, c⟩ ⟨none, (c.settleModel p).2⟩ := by
  cases p with
  | waiting => exact .refl
  | advanced => exact .refl
  | finished completion => exact .single (.succeed completion hr)
  | failed error => exact .single (.fail error hr hp)

theorem resolve_turns {active : ActiveHandler} (hr : c.session.isRunning = true)
    (ha : c.session.faults.active = some active) (completion : Completion) :
    Turns ⟨none, c⟩ ⟨none, (c.resolve active completion).2⟩ := by
  have hended : (c.resolved active completion).session.faults.active = none :=
    endHandler_active c active .resolved
  have hrunning : (c.resolved active completion).session.isRunning = true := hr
  have hact := resumptionOf_act (c.resolved active completion) active
  have hmodel : Turns ⟨none, _⟩ ⟨none, _⟩ := runModel_turns hrunning hended hact
  have hafter : ((c.resolved active completion).runModel
      ((c.resolved active completion).resumptionOf active)).2.session.isRunning = true := hr
  rw [resolve_eq]
  exact .head (.resolve completion hr ha)
    (hmodel.trans (settleModel_turns hafter (resumptionOf_plain ..)))

theorem ready_turns (hr : c.session.isRunning = true) (ha : c.session.faults.active = none)
    (target : Target) {d : Disposition} (hd : d = .triggered ∨ d = .preempted) :
    Turns ⟨some f, c⟩ ⟨some f, c.ready target f d⟩ := by
  refine .head (.trigger target.response.name hr hd) ?_
  unfold ready suspend
  split
  · exact .single (.model hr ha .retireCurrent)
  · exact .refl

theorem startHandler_turns (hr : c.session.isRunning = true)
    (ha : c.session.faults.active = none) {target : Target}
    (ht : c.session.faults.response? target.table target.entry = some target.response)
    {d : Disposition} (hd : d = .triggered ∨ d = .preempted) :
    Turns ⟨some f, c⟩ ⟨none, (c.startHandler target f d).2⟩ := by
  have hr' : (c.ready target f d).session.isRunning = true := by
    simpa [Session.isRunning] using hr
  have ha' : (c.ready target f d).session.faults.active = none := by simpa using ha
  have ht' : (c.ready target f d).session.faults.response? target.table target.entry =
      some target.response := by simpa using ht
  have hinstalled := (ready_turns hr ha target hd).tail (.install target hr' ha' ht')
  rw [startHandler_eq]
  split
  · rename_i hs
    exact hinstalled.tail (.handler hr' rfl (.start hs))
  · exact hinstalled

theorem escalate_turns {active : ActiveHandler} {next : Option Target} {c' : Scene}
    (hr : c.session.isRunning = true) (ha : c.session.faults.active = some active)
    (h : c.escalate active = (next, c')) : Turns ⟨none, c⟩ ⟨some active.fault, c'⟩ := by
  obtain rfl : (c.escalate active).2 = c' := congrArg Prod.snd h
  exact .single (.escalate hr ha)

/-! ## Faults -/

theorem engage_turns (fuel : Nat) {target : Target} {d : Disposition}
    (hr : c.session.isRunning = true) (ha : c.session.faults.active = none)
    (ht : c.session.faults.response? target.table target.entry = some target.response)
    (hd : d = .triggered ∨ d = .preempted) :
    Turns ⟨some f, c⟩ ⟨none, (engage fuel c target f d).2⟩ := by
  induction fuel generalizing c target d with
  | zero => exact .single (.exhaust hr)
  | succ fuel ih =>
    have hstart := startHandler_turns (f := f) hr ha ht hd
    cases hs : c.startHandler target f d with
    | mk p c₁ =>
      obtain ⟨hstatus, _, active, hactive, hf⟩ := startHandler_ok hs
      have hr₁ := Session.running_of_same hstatus hr
      rw [hs] at hstart
      simp only [engage, hs, hactive]
      cases p with
      | waiting => exact hstart
      | advanced => exact hstart
      | finished completion => exact hstart.trans (resolve_turns hr₁ hactive completion)
      | failed error =>
        simp only
        split
        · rename_i next c₂ he
          obtain ⟨hstatus₂, ha₂, _⟩ := escalate_ok he
          have hr₂ := Session.running_of_same hstatus₂ hr₁
          have hescalated := escalate_turns hr₁ hactive he
          rw [hf] at hescalated
          exact (hstart.trans hescalated).trans (ih hr₂ ha₂ (escalate_found he) (.inl rfl))
        · rename_i c₂ he
          obtain ⟨hstatus₂, _, _⟩ := escalate_ok he
          have hr₂ := Session.running_of_same hstatus₂ hr₁
          have hescalated := escalate_turns hr₁ hactive he
          rw [hf] at hescalated
          exact (hstart.trans hescalated).tail (.exhaust hr₂)

/-- Handling a fault draws none of those that wait and adds none to them. -/
theorem engage_pending (fuel : Nat) {target : Target} {d : Disposition}
    (h : (engage fuel c target f d).2.session.isRunning = true) :
    (engage fuel c target f d).2.session.faults.pending = c.session.faults.pending := by
  induction fuel generalizing c target d with
  | zero => exact absurd h (Status.not_running (exhaust_terminal c f))
  | succ fuel ih =>
    cases hs : c.startHandler target f d with
    | mk p c₁ =>
      obtain ⟨_, hpending, active, hactive, _⟩ := startHandler_ok hs
      simp only [engage, hs, hactive] at h ⊢
      cases p with
      | waiting => exact hpending
      | advanced => exact hpending
      | finished completion => exact (resolve_pending h).trans hpending
      | failed error =>
        simp only at h ⊢
        split at h
        · rename_i next c₂ he
          obtain ⟨_, _, hpending₂⟩ := escalate_ok he
          exact ((ih h).trans hpending₂).trans hpending
        · exact absurd h (Status.not_running (exhaust_terminal _ f))

/-- The fault in hand is settled by routing it. -/
theorem route_turns (hr : c.session.isRunning = true) (f : Fault) :
    Turns ⟨some f, c⟩ ⟨none, (c.route f).2⟩ := by
  refine .head (.count f hr) ?_
  unfold route
  extract_lets c₁
  have hr₁ : c₁.session.isRunning = true := hr
  split
  · exact .single (.unhandled hr₁)
  · rename_i hd
    obtain ⟨active, ha⟩ := decide_displace (.inr hd)
    exact .single (.queue hr₁ (by rw [ha]; rfl))
  · rename_i target hd
    obtain ⟨active, ha⟩ := decide_displace (.inl ⟨target, hd⟩)
    obtain ⟨hfault, hstatus, hnone⟩ := abandonHandler_ok ha
    have hr₂ : (c₁.abandonHandler.2.record
        (.fault active.fault .dropped none)).session.isRunning = true :=
      Session.running_of_same hstatus hr₁
    have ht : (c₁.abandonHandler.2.record
        (.fault active.fault .dropped none)).session.faults.response? target.table target.entry =
          some target.response :=
      (Dispatch.response?_congr (abandonHandler_responses c₁) ..).trans (decide_found (.inr hd))
    simp only [hfault]
    exact .head (.displace hr₁ ha) (engage_turns _ hr₂ hnone ht (.inr rfl))
  · rename_i target hd
    exact engage_turns _ hr₁ (decide_activate hd) (decide_found (.inl hd)) (.inl rfl)

/-- While no handler runs, the faults that wait stay as they are when another one is routed. -/
theorem route_pending (ha : c.session.faults.active = none)
    (h : (c.route f).2.session.isRunning = true) :
    (c.route f).2.session.faults.pending = c.session.faults.pending := by
  unfold route at h ⊢
  extract_lets at h ⊢
  split at h
  · rfl
  · rename_i hd
    obtain ⟨active, hactive⟩ := decide_displace (.inr hd)
    exact absurd (ha.symm.trans hactive) (by simp)
  · rename_i target hd
    obtain ⟨active, hactive⟩ := decide_displace (.inl ⟨target, hd⟩)
    exact absurd (ha.symm.trans hactive) (by simp)
  · exact engage_pending _ h

theorem drain_turns (faults : List Fault) {outcome : Outcome}
    (hp : c.session.isRunning = true → c.session.faults.pending = faults) :
    Turns ⟨none, c⟩ ⟨none, (drain faults outcome c).2⟩ := by
  induction faults generalizing c outcome with
  | nil => exact .refl
  | cons f rest ih =>
    simp only [drain]
    split
    · rename_i hfree
      obtain ⟨hr, hsuspended⟩ : c.session.isRunning = true ∧ c.session.isSuspended = false := by
        simpa using hfree
      have ha : c.session.faults.active = none := by
        simpa [Session.isSuspended, Dispatch.isHandling] using hsuspended
      have hr' : (c.withPending rest).session.isRunning = true := hr
      have ha' : (c.withPending rest).session.faults.active = none := ha
      have hroute : ∀ {routing c'}, (c.withPending rest).route f = (routing, c') →
          Turns ⟨none, c⟩ ⟨none, c'⟩ ∧
            (c'.session.isRunning = true → c'.session.faults.pending = rest) := by
        intro routing c' h
        obtain rfl : ((c.withPending rest).route f).2 = c' := congrArg Prod.snd h
        exact ⟨.head (.draw hr ha (hp hr)) (route_turns hr' f), route_pending ha'⟩
      split
      · rename_i h
        exact (hroute h).1
      · rename_i h
        exact (hroute h).1
      · rename_i h
        obtain ⟨ht, hp'⟩ := hroute h
        split
        · exact ht
        · exact ht.trans (ih hp')
      · rename_i h
        obtain ⟨ht, hp'⟩ := hroute h
        exact ht.trans (ih hp')
    · exact .refl

theorem conclude_turns (handling : Handling) :
    Turns ⟨none, c⟩ ⟨none, (c.conclude handling).2⟩ := by
  cases handling with
  | started response => exact .refl
  | lost outcome => exact .refl
  | resolved response model =>
    have hdrain : Turns ⟨none, c⟩ ⟨none, (drain c.session.faults.pending model c).2⟩ :=
      drain_turns _ fun _ => rfl
    simp only [conclude]
    split
    · rename_i h
      rw [h] at hdrain
      exact hdrain
    · rename_i h
      rw [h] at hdrain
      exact hdrain
    · rename_i h
      rw [h] at hdrain
      exact hdrain

theorem settleHandler_turns {active : ActiveHandler} (hr : c.session.isRunning = true)
    (ha : c.session.faults.active = some active) (p : Progress) :
    Turns ⟨none, c⟩ ⟨none, (c.settleHandler active p).2⟩ := by
  cases p with
  | waiting => exact .refl
  | advanced => exact .refl
  | finished completion =>
    simp only [settleHandler]
    exact (resolve_turns hr ha completion).trans (drain_turns _ fun _ => rfl)
  | failed error =>
    simp only [settleHandler]
    split
    · rename_i next c' h
      obtain ⟨hstatus, ha', _⟩ := escalate_ok h
      have hr' := Session.running_of_same hstatus hr
      have hengaged : Turns ⟨none, c⟩ ⟨none, (c'.handle next active.fault .triggered).2⟩ :=
        (escalate_turns hr ha h).trans (engage_turns _ hr' ha' (escalate_found h) (.inl rfl))
      exact hengaged.trans (conclude_turns _)
    · rename_i c' h
      obtain ⟨hstatus, _, _⟩ := escalate_ok h
      have hr' := Session.running_of_same hstatus hr
      exact (escalate_turns hr ha h).tail (.exhaust hr')

/-! ## Calls -/

theorem start_turns (hidle : c.session.status = .created → c.session.faults.active = none) :
    Turns ⟨none, c⟩ ⟨none, c.start.2⟩ := by
  unfold start
  split
  · exact .refl
  rename_i h
  have hcreated : c.session.status = .created := by simpa using h
  have ha := hidle hcreated
  have hbegin : Turns ⟨none, c⟩ ⟨none, c.begin⟩ := .single (.begin hcreated)
  have hr : c.begin.session.isRunning = true := rfl
  extract_lets c₁
  split
  · rename_i p e s hs
    have hr' : (c₁.withEngine e s).session.isRunning = true := hr
    exact (hbegin.tail (.model hr ha (.start hs))).trans
      (settleModel_turns hr' (Engine.start_mishap hs).plain)
  · rename_i he
    have hmishap := (Engine.start_error_mishap _ _).error he
    exact hbegin.tail (.fail _ hr (Error.isPlain_of_isMishap hmishap))

theorem handleEvent_turns (c : Scene) (e : Event) :
    Turns ⟨none, c⟩ ⟨none, (c.handleEvent e).2⟩ := by
  unfold handleEvent
  split
  · exact .refl
  rename_i hrunning
  have hr : c.session.isRunning = true := by simpa using hrunning
  have hhear : Turns ⟨none, c⟩ ⟨none, c.hear e⟩ := .single (.hear e hr)
  have hr₁ : (c.hear e).session.isRunning = true := hr
  extract_lets c₁
  split
  · exact hhear.tail (.halt _ hr₁)
  split
  · rename_i active ha
    have hacted := hhear.tail (.handler hr₁ ha (.onEvent e))
    have hr₂ : ((c.hear e).withHandler active (active.engine.onEvent e (c.hear e).stage).2.1
        (active.engine.onEvent e (c.hear e).stage).2.2).session.isRunning = true := hr
    exact hacted.trans (settleHandler_turns hr₂ rfl _)
  · rename_i ha
    have hacted := hhear.tail (.model hr₁ ha (.onEvent e))
    have hr₂ : ((c.hear e).runModel fun engine s => engine.onEvent e s).2.session.isRunning =
        true := hr
    exact hacted.trans (settleModel_turns hr₂ (Engine.onEvent_plain ..))

theorem handleFault_turns (hr : c.session.isRunning = true) (f : Fault) :
    Turns ⟨some f, c⟩ ⟨none, (c.handleFault f).2⟩ := by
  have hroute := route_turns hr f
  unfold handleFault
  rw [if_neg (by simp [hr])]
  split
  · rename_i h
    rw [h] at hroute
    exact hroute
  · rename_i h
    rw [h] at hroute
    exact hroute
  · rename_i handling c' h
    rw [h] at hroute
    exact hroute.trans (conclude_turns handling)

theorem stop_turns (c : Scene) : Turns ⟨none, c⟩ ⟨none, c.stop.2⟩ := by
  unfold stop
  split
  · rename_i h
    exact .single (.halt _ (by rw [Session.isRunning, h]; rfl))
  · rename_i h
    exact .single (.cancel h)
  · exact .refl

end Scene

end Conductor
