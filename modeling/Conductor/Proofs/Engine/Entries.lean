import Conductor.Proofs.Engine.Passages
import Conductor.Proofs.Engine.Tending

/-!
Entries. To enter a step with a source is to resolve the source for the slot of the step. An engine only
enters steps while its lane is free: the step before was left, or has lost its task, or there was none.
So the slot is not filled at that moment, and the step is given what its source yields now.
-/

namespace Conductor

/-- Whether a source describes a task that is to be made. -/
def Source.describes : Source → Bool
  | .action .. | .plan .. => true
  | .builder .. | .held .. => false

/-- The entry into a step with a source: on the stage the source is resolved for the slot. -/
structure Entry where
  key : SlotKey
  source : Source
  stage : Stage

namespace Entry

/-- What the step is given. -/
def result (e : Entry) : Except Error Handle := (e.stage.resolve e.key e.source).1

/-- The stage once the step has its task. -/
def after (e : Entry) : Stage := (e.stage.resolve e.key e.source).2

/-- What the source yields on the stage, whatever the slots are. -/
def yields (e : Entry) : Except Error Handle :=
  (Slots.produce e.stage.catalog e.stage.root e.source e.stage.scopes e.stage.plan).1

/-- The task that the slot is filled with. It stays there although it could not be started. -/
def filling? (e : Entry) : Option Handle :=
  (e.stage.slots.resolve e.stage.catalog e.key e.source e.stage.scopes e.stage.plan).1.toOption

/-- The step is given a task of its own. -/
structure Fresh (e : Entry) : Prop where
  vacant : e.stage.slots.isLive e.key = false
  given : ∀ task, e.result = .ok task → e.yields = .ok task
  made : e.source.describes = true → ∀ task, e.result = .ok task →
    task.id = Plan.idOf e.after.plan.made ∧ e.after.plan.made = e.stage.plan.made + 1 ∧
      e.after.plan.instantiated = e.stage.plan.instantiated ++ [task]

end Entry

/-! ## Tasks that are made -/

namespace Plan

variable {p q : Plan}

theorem instantiate_made {d : Description} {task : Handle} (h : p.instantiate d = .ok (task, q)) :
    task.id = idOf q.made ∧ q.made = p.made + 1 ∧ q.instantiated = p.instantiated ++ [task] := by
  obtain ⟨rfl, rfl⟩ := instantiate_eq h
  exact ⟨rfl, rfl, rfl⟩

theorem attach_made {parent : TaskId} {child : Handle} {role : String}
    (h : p.attach parent child role = .ok q) :
    q.made = p.made ∧ q.instantiated = p.instantiated := by
  obtain ⟨-, -, rfl⟩ := attach_eq h
  exact ⟨rfl, rfl⟩

theorem start_made {task : Handle} (h : p.start task = .ok q) :
    q.made = p.made ∧ q.instantiated = p.instantiated := by
  obtain ⟨t, -, -, rfl⟩ | ⟨-, rfl⟩ := start_eq h
  · exact ⟨rfl, rfl⟩
  · exact ⟨rfl, rfl⟩

end Plan

namespace Slots

variable {s : Slots} {p q : Plan} {scopes scopes' : Scopes} {source : Source} {task : Handle}

theorem make_ok {d : Description} {inWords : ProviderError → Unresolvable}
    (h : make p d inWords = (.ok task, q)) : p.instantiate d = .ok (task, q) := by
  unfold make at h
  split at h
  · rename_i hi
    cases h
    exact hi
  · cases h

/-- A source that describes a task makes one. -/
theorem produce_makes {catalog : Catalog} {root : TaskId} (hs : source.describes = true)
    (h : produce catalog root source scopes p = (.ok task, scopes', q)) :
    ∃ d, p.instantiate d = .ok (task, q) := by
  cases source with
  | action name arguments =>
    simp only [produce] at h
    split at h
    · cases h
    split at h
    · cases h
    split at h
    · cases h
    · rename_i d _
      obtain ⟨hresult, hrest⟩ := Prod.mk.inj h
      obtain ⟨-, hplan⟩ := Prod.mk.inj hrest
      exact ⟨d, make_ok (Prod.ext hresult hplan)⟩
  | plan name d =>
    simp only [produce] at h
    obtain ⟨hresult, hrest⟩ := Prod.mk.inj h
    obtain ⟨-, hplan⟩ := Prod.mk.inj hrest
    exact ⟨d, make_ok (Prod.ext hresult hplan)⟩
  | builder | held => cases hs

end Slots

namespace Stage

variable {s s' : Stage} {key : SlotKey} {source : Source} {task : Handle}

/-- What is given to a step whose slot was not filled. -/
theorem resolve_vacant (hkey : s.slots.isLive key = false)
    (h : s.resolve key source = (.ok task, s')) :
    ∃ scopes p q, Slots.produce s.catalog s.root source s.scopes s.plan = (.ok task, scopes, p) ∧
      p.attach s.root task (key.role s.slots.rolePrefix) = .ok q ∧
      (s'.plan = q ∨ q.start task = .ok s'.plan) := by
  have hnone : s.slots.slot? key = none := by simpa [Slots.isLive] using hkey
  obtain ⟨result, slots, scopes, q, started, hr, hresult, hstarted, he⟩ := s.resolve_cases key source
  rw [h] at hresult he
  obtain rfl : s' = _ := he
  rw [hresult task rfl] at hr hstarted
  simp only [Slots.resolve, hnone] at hr
  split at hr
  · cases hr
  rename_i p hproduce
  split at hr
  · cases hr
  rename_i hattach
  cases hr
  refine ⟨_, p, q, hproduce, hattach, ?_⟩
  obtain rfl | ⟨task', htask, hstart⟩ := hstarted
  · exact .inl rfl
  · cases htask
    exact .inr hstart

end Stage

namespace Entry

variable {e : Entry}

/-- Where the slot is not filled, the step is given a task of its own. -/
theorem fresh_of_vacant (h : e.stage.slots.isLive e.key = false) : e.Fresh where
  vacant := h
  given := fun task hresult => by
    obtain ⟨_, _, _, hproduce, -, -⟩ := Stage.resolve_vacant h (Prod.ext hresult (Eq.refl e.after))
    exact congrArg Prod.fst hproduce
  made := fun hsource task hresult => by
    obtain ⟨_, p, q, hproduce, hattach, hstart⟩ :=
      Stage.resolve_vacant h (Prod.ext hresult (Eq.refl e.after))
    obtain ⟨d, hd⟩ := Slots.produce_makes hsource hproduce
    obtain ⟨hid, hmade, hlisted⟩ := Plan.instantiate_made hd
    obtain ⟨hmade', hlisted'⟩ := Plan.attach_made hattach
    have hafter : e.after.plan.made = q.made ∧ e.after.plan.instantiated = q.instantiated := by
      rcases hstart with rfl | hstart
      · exact ⟨rfl, rfl⟩
      · exact Plan.start_made hstart
    rw [hafter.1, hafter.2, hmade', hlisted']
    exact ⟨hid, hmade, hlisted⟩

theorem after_filled (h : e.stage.slots.isLive e.key = false) :
    e.after.slots.filled = e.filling?.toList ++ e.stage.slots.filled := by
  have hnone : e.stage.slots.slot? e.key = none := by simpa [Slots.isLive] using h
  rw [after, Stage.resolve_slots, filling?]
  unfold Slots.resolve
  rw [hnone]
  dsimp only
  split
  · rfl
  · split <;> rfl

end Entry

/-- What came of entering steps one after the other, some of which have a source. -/
structure Course.Entered (lane : Lane) (entries : List Entry) (s : Stage) (p : Progress)
    (c : Course) (s' : Stage) : Prop where
  fresh : ∀ e ∈ entries, e.key.lane = lane ∧ e.Fresh
  /-- A step that is given no task fails the run. -/
  fails : ∀ e ∈ entries, ∀ error, e.result = .error error → p = .failed error
  /-- No slot is filled otherwise. -/
  filled : s'.slots.filled = (entries.filterMap Entry.filling?).reverse ++ s.slots.filled
  /-- The step that is active in the end has what it was given. -/
  step : ∀ step task, c.step = some step → step.task = some task →
    ∃ e ∈ entries, e.key = step.key ∧ e.result = .ok task

namespace Course

variable {lane : Lane} {c c₁ : Course} {s s₁ s' : Stage} {p : Progress} {label : String}
  {source : Option Source} {made : List Entry}

/-- The entry into a step, if the step has a source. -/
def entries (c : Course) (label : String) (source : Option Source) (s : Stage) : List Entry :=
  (source.map fun source => ⟨c.key label, source, s⟩).toList

namespace Entered

/-- No step with a source was entered, and none is active. -/
theorem of_none (hstep : c.step = none) (hfilled : s'.slots.filled = s.slots.filled) :
    Entered lane [] s p c s' where
  fresh := by simp
  fails := by simp
  filled := hfilled
  step := fun step _ hs => nomatch hstep.symm.trans hs

theorem before (h : Entered lane made s₁ p c s') (hfilled : s₁.slots.filled = s.slots.filled) :
    Entered lane made s p c s' :=
  ⟨h.fresh, h.fails, h.filled.trans (congrArg _ hfilled), h.step⟩

end Entered

/-- A step takes what its source, if it has one, yields now. -/
structure Takes (c : Course) (label : String) (source : Option Source) (s : Stage)
    (result : Except Error (Option Handle)) (s' : Stage) : Prop where
  fresh : ∀ e ∈ c.entries label source s, e.key = c.key label ∧ e.Fresh
  fails : ∀ e ∈ c.entries label source s, ∀ error, e.result = .error error → result = .error error
  filled : s'.slots.filled =
    ((c.entries label source s).filterMap Entry.filling?).reverse ++ s.slots.filled
  given : ∀ task, result = .ok (some task) → ∃ e ∈ c.entries label source s, e.result = .ok task

theorem takes_none (c : Course) (label : String) (s : Stage) :
    c.Takes label none s (.ok none) s where
  fresh := by simp [entries]
  fails := by simp [entries]
  filled := rfl
  given := by simp

theorem takes_some (hc : c.RunsIn lane) (hfree : s.slots.holdings lane = []) (label : String)
    (source : Source) : c.Takes label (some source) s
      ((s.resolve (c.key label) source).1.map some) (s.resolve (c.key label) source).2 := by
  let e : Entry := ⟨c.key label, source, s⟩
  have hkey : e.key.lane = lane := hc.home
  have hvacant : e.stage.slots.isLive e.key = false := by
    refine Slots.not_live_of_free ?_
    rw [hkey]
    exact hfree
  have hentries : c.entries label (some source) s = [e] := rfl
  refine ⟨?_, ?_, ?_, ?_⟩
  · rw [hentries]
    exact List.forall_mem_singleton.mpr ⟨rfl, Entry.fresh_of_vacant hvacant⟩
  · rw [hentries]
    refine List.forall_mem_singleton.mpr fun error herror => ?_
    show e.result.map some = _
    rw [herror]
    rfl
  · rw [hentries]
    refine (Entry.after_filled hvacant).trans ?_
    show _ = _ ++ e.stage.slots.filled
    cases he : e.filling? <;> simp [he]
  · intro task htask
    obtain ⟨task', hresult, heq⟩ := Except.map_eq_ok htask
    cases heq
    exact ⟨e, List.mem_singleton.mpr rfl, hresult⟩

theorem takeTask_takes {result : Except Error (Option Handle)} (hc : c.RunsIn lane)
    (hfree : s.slots.holdings lane = []) (h : c.takeTask label source s = (result, s')) :
    c.Takes label source s result s' := by
  unfold takeTask at h
  split at h
  · cases h
    exact c.takes_none label s
  · cases h
    exact takes_some hc hfree label _

/-- A course that is about to enter steps finds its lane free, and no slot was filled on the way. -/
structure Clear (lane : Lane) (s : Stage) (c : Course) (s₁ : Stage) : Prop where
  home : c.RunsIn lane
  running : c.status = .running
  free : s₁.slots.holdings lane = []
  filled : s₁.slots.filled = s.slots.filled

theorem Clear.begin (ht : c.Tends lane s) (hrest : c.status ≠ .running) :
    c.begin.Clear lane s s :=
  ⟨.of_no_step ht.home.home rfl, rfl, ht.free (ht.rest hrest), rfl⟩

/-- A step that has lost its task is entered again. -/
theorem Clear.reenter (ht : c.Tends lane s) (hrun : c.status = .running)
    (hlost : c.replaced || c.step.isNone) : c.Clear lane s s :=
  ⟨ht.home, hrun, ht.free_of_lost hlost, rfl⟩

theorem Clear.after (h : c.Clear lane s s₁) {t : Stage} (hfilled : s.slots.filled = t.slots.filled) :
    c.Clear lane t s₁ :=
  ⟨h.home, h.running, h.free, h.filled.trans hfilled⟩

theorem clearing_tends (hc : c.RunsIn lane) (s : Stage) :
    (c.stop s).1.Tends lane (c.clearing s) :=
  (close_yields hc _ .waiting rfl).tends.of_same rfl

namespace Takes

variable {result : Except Error (Option Handle)} {task : Option Handle}

/-- What is entered after the step, or the failure for want of a task, comes on top. -/
theorem entered (ht : Takes c₁ label source s result s₁) (hlane : c₁.lane = lane)
    (h : Entered lane made s₁ p c s') (hresult : ∀ error, result = .error error → p = .failed error) :
    Entered lane (c₁.entries label source s ++ made) s p c s' where
  fresh := by
    refine List.forall_mem_append.mpr ⟨fun e he => ?_, h.fresh⟩
    obtain ⟨hkey, hfresh⟩ := ht.fresh e he
    exact ⟨(congrArg SlotKey.lane hkey).trans hlane, hfresh⟩
  fails := by
    refine List.forall_mem_append.mpr ⟨fun e he error herror => ?_, h.fails⟩
    exact hresult error (ht.fails e he error herror)
  filled := by rw [h.filled, ht.filled, List.filterMap_append, List.reverse_append, List.append_assoc]
  step := fun step task hstep htask => by
    obtain ⟨e, he, hkey, hresult⟩ := h.step step task hstep htask
    exact ⟨e, List.mem_append_right _ he, hkey, hresult⟩

/-- The run fails for want of a task, or on leaving the step at once. -/
theorem entered_none (ht : Takes c₁ label source s result s₁) (hlane : c₁.lane = lane)
    (hstep : c.step = none) (hfilled : s'.slots.filled = s₁.slots.filled)
    (hresult : ∀ error, result = .error error → p = .failed error) :
    Entered lane (c₁.entries label source s) s p c s' := by
  have hentered := ht.entered hlane (.of_none hstep hfilled) hresult
  rwa [List.append_nil] at hentered

/-- The step is active now. -/
theorem entered_active (ht : Takes c₁ label source s (.ok task) s₁) (hlane : c₁.lane = lane)
    {since : Nat} (hstep : c.step = some ⟨c₁.key label, task, since⟩)
    (hfilled : s'.slots.filled = s₁.slots.filled) :
    Entered lane (c₁.entries label source s) s p c s' where
  fresh := fun e he => by
    obtain ⟨hkey, hfresh⟩ := ht.fresh e he
    exact ⟨(congrArg SlotKey.lane hkey).trans hlane, hfresh⟩
  fails := fun e he error herror => nomatch ht.fails e he error herror
  filled := hfilled.trans ht.filled
  step := fun step given hs htask => by
    cases hstep.symm.trans hs
    obtain rfl : task = some given := htask
    obtain ⟨e, he, hresult⟩ := ht.given given rfl
    exact ⟨e, he, (ht.fresh e he).1, hresult⟩

end Takes

end Course

/-! ## Scripts -/

namespace ScriptRun

/-- The entries that are made when instructions are entered. -/
def entriesFrom : List Instruction → ScriptRun → Stage → List Entry
  | [], _, _ => []
  | i :: rest, r, s =>
    let r := r.entering
    let since := s.log.cursor
    match r.mayEnter i s with
    | (false, s) =>
      let (r, s) := r.skip i s
      entriesFrom rest r s
    | (true, s) =>
      let first := r.entries i.label i.source s
      match r.takeTask i.label i.source s with
      | (.error _, _) => first
      | (.ok task, s) =>
        if i.exitGuard = .always then
          match exit { r with step := some ⟨r.key i.label, task, since⟩ } i none s with
          | (.error _, _, _) => first
          | (.ok (), r, s) => first ++ entriesFrom rest r s
        else first

variable {lane : Lane} {r r' : ScriptRun} {s s' : Stage} {p : Progress}

section

variable {i : Instruction} {rest : List Instruction} {t u : Stage} {task : Option Handle}

theorem entriesFrom_skipped (hmay : r.entering.mayEnter i s = (false, t)) :
    entriesFrom (i :: rest) r s =
      entriesFrom rest (r.entering.skip i t).1 (r.entering.skip i t).2 := by
  simp only [entriesFrom, hmay]

theorem entriesFrom_refused {error : Error} (hmay : r.entering.mayEnter i s = (true, t))
    (htask : r.entering.takeTask i.label i.source t = (.error error, u)) :
    entriesFrom (i :: rest) r s = r.entering.entries i.label i.source t := by
  simp only [entriesFrom, hmay, htask]

theorem entriesFrom_held (hmay : r.entering.mayEnter i s = (true, t))
    (htask : r.entering.takeTask i.label i.source t = (.ok task, u)) (hstays : i.exitGuard ≠ .always) :
    entriesFrom (i :: rest) r s = r.entering.entries i.label i.source t := by
  simp only [entriesFrom, hmay, htask, if_neg hstays]

theorem entriesFrom_stuck {error : Error} {r₁ : ScriptRun} {v : Stage}
    (hmay : r.entering.mayEnter i s = (true, t))
    (htask : r.entering.takeTask i.label i.source t = (.ok task, u)) (halways : i.exitGuard = .always)
    (hexit : exit { r.entering with step := some ⟨r.entering.key i.label, task, s.log.cursor⟩ }
      i none u = (.error error, r₁, v)) :
    entriesFrom (i :: rest) r s = r.entering.entries i.label i.source t := by
  simp only [entriesFrom, hmay, htask, if_pos halways, hexit]

theorem entriesFrom_left {r₁ : ScriptRun} {v : Stage}
    (hmay : r.entering.mayEnter i s = (true, t))
    (htask : r.entering.takeTask i.label i.source t = (.ok task, u)) (halways : i.exitGuard = .always)
    (hexit : exit { r.entering with step := some ⟨r.entering.key i.label, task, s.log.cursor⟩ }
      i none u = (.ok (), r₁, v)) :
    entriesFrom (i :: rest) r s =
      r.entering.entries i.label i.source t ++ entriesFrom rest r₁ v := by
  simp only [entriesFrom, hmay, htask, if_pos halways, hexit]

end

/-- Instructions that are entered from a free lane are given tasks of their own. -/
theorem enterFrom_entered {rest : List Instruction} (hr : r.RunsIn lane)
    (hrun : r.status = .running) (hfree : s.slots.holdings lane = [])
    (h : enterFrom rest r s = (p, r', s')) :
    Course.Entered lane (entriesFrom rest r s) s p r'.toCourse s' := by
  -- An instruction that is skipped or left at once leaves the lane as free as it found it.
  induction rest generalizing r s with
  | nil =>
    simp only [enterFrom, finish] at h
    cases h
    exact .of_none rfl (r.close_filled .finished s)
  | cons i rest ih =>
    have hentered : Course.RunsIn lane r.toCourse.enterStep := hr.of_eq rfl rfl
    have hsame := congrArg Fittings.filled (r.entering.mayEnter_fittings i s)
    simp only [enterFrom, skip] at h
    split at h
    · rename_i t hmay
      have hfree₁ := (Stage.holdings_of_calms (fun _ => mayEnter_calms hmay) lane).trans hfree
      rw [entriesFrom_skipped hmay]
      refine (ih ?_ ?_ ?_ h).before ((congrArg (·.2.fittings.filled) hmay).symm.trans hsame)
      · exact hr.of_eq rfl rfl
      · exact hrun
      · exact hfree₁
    · rename_i t hmay
      have hfree₁ := (Stage.holdings_of_calms (fun _ => mayEnter_calms hmay) lane).trans hfree
      refine Course.Entered.before ?_ ((congrArg (·.2.fittings.filled) hmay).symm.trans hsame)
      split at h
      · rename_i error _ htask
        have htakes := Course.takeTask_takes hentered hfree₁ htask
        rw [entriesFrom_refused hmay htask]
        cases h
        exact htakes.entered_none hentered.home rfl (r.enterStep.close_filled .failed _)
          fun _ he => by cases he; rfl
      · rename_i task s₂ htask
        have htakes := Course.takeTask_takes hentered hfree₁ htask
        have hholds := Course.takeTask_holds hentered hfree₁ htask
        have hactive := Course.Tends.enter hentered hrun s.log.cursor rfl hholds
        split at h
        · rename_i halways
          split at h
          · rename_i error r₁ s₃ hexit
            rw [entriesFrom_stuck hmay htask halways hexit]
            have hleft := exit_filled hexit
            cases h
            refine htakes.entered_none hentered.home rfl ?_ fun _ he => by cases he
            exact (r₁.close_filled .failed s₃).trans hleft
          · rename_i hexit
            rw [entriesFrom_left hmay htask halways hexit]
            obtain ⟨hstatus, hfree₃⟩ := exit_frees hactive hexit
            have hrest := ih (exit_reports hactive.home hexit).2 (hstatus.trans hrun) hfree₃ h
            exact htakes.entered hentered.home (hrest.before (exit_filled hexit))
              fun _ he => by cases he
        · rename_i hstays
          rw [entriesFrom_held hmay htask hstays]
          cases h
          refine htakes.entered_active hentered.home rfl ?_
          exact congrArg Fittings.filled (Course.subscribe_fittings ..)

section

variable {event : Option Event} {t : Threshold}

theorem begins?_clear (ht : r.Tends lane s) (h : r.begins? s = some t) :
    t.engine.course.Clear lane s t.stage := by
  unfold begins? at h
  split at h
  · cases h
  · rename_i hmay
    cases h
    exact .begin ht fun hrun => hmay (.inl hrun)

theorem leaves?_clear (ht : r.Tends lane s) (hrun : r.status = .running)
    (h : r.leaves? event s = some t) : t.engine.course.Clear lane s t.stage := by
  unfold leaves? at h
  split at h
  · rename_i i step hi hstep
    have hsame := Stage.holdings_of_calms
      (fun _ => s.evaluate_calms i.exitGuard (step.focus r.last) r.memo) lane
    have hmemo := (ht.withMemo (s.evaluate i.exitGuard (step.focus r.last) r.memo).2.1).of_same hsame
    have heval := s.evaluate_filled i.exitGuard (step.focus r.last) r.memo
    split at h
    · rename_i heq
      rw [heq] at hmemo heval
      split at h
      · rename_i hexit
        cases h
        obtain ⟨hstatus, hfree⟩ := exit_frees hmemo hexit
        exact ⟨(exit_reports hmemo.home hexit).2, hstatus.trans hrun, hfree,
          (exit_filled hexit).trans heval⟩
      · cases h
    · cases h
  · cases h

theorem hears?_clear {e : Event} (ht : r.Tends lane s) (h : r.hears? e s = some t) :
    t.engine.course.Clear lane s t.stage := by
  unfold hears? at h
  split at h
  · cases h
  · rename_i hready
    have hrun : r.status = .running := by
      simp only [Bool.or_eq_true, not_or, decide_eq_true_eq, Decidable.not_not] at hready
      exact hready.1.1
    exact leaves?_clear ht hrun h

theorem goesOn?_clear (ht : r.Tends lane s) (h : r.goesOn? s = some t) :
    t.engine.course.Clear lane s t.stage := by
  unfold goesOn? at h
  split at h
  · cases h
  rename_i hstatus
  have hrun : r.status = .running := by simpa using hstatus
  split at h
  · rename_i hlost
    cases h
    exact .reenter ht hrun hlost
  · exact leaves?_clear ht hrun h

end

end ScriptRun

/-! ## Machines -/

namespace MachineRun

/-- The entry that is made when a state is entered. -/
def entriesOf (r : MachineRun) (id : String) (s : Stage) : List Entry :=
  match r.machine.state? id with
  | none => []
  | some state =>
    if state.isFinalMarker then [] else r.toCourse.enterStep.entries state.id state.source s

variable {lane : Lane} {r r' : MachineRun} {s s' : Stage} {p : Progress} {id : String}

theorem entriesOf_unknown (hstate : r.machine.state? id = none) (s : Stage) :
    r.entriesOf id s = [] := by
  simp only [entriesOf, hstate]

theorem entriesOf_declared {state : State} (hstate : r.machine.state? id = some state)
    (s : Stage) : r.entriesOf id s =
      if state.isFinalMarker then [] else r.toCourse.enterStep.entries state.id state.source s := by
  simp only [entriesOf, hstate]

/-- A state that is entered from a free lane is given a task of its own. -/
theorem enter_entered (hr : r.RunsIn lane) (hfree : s.slots.holdings lane = [])
    (h : r.enter id s = (p, r', s')) :
    Course.Entered lane (r.entriesOf id s) s p r'.toCourse s' := by
  have hentered : Course.RunsIn lane r.toCourse.enterStep := hr.of_eq rfl rfl
  unfold enter at h
  split at h
  · rename_i hnone
    rw [entriesOf_unknown hnone]
    cases h
    exact .of_none rfl (r.close_filled .failed s)
  · rename_i state hstate
    have hid : state.id = id := by simpa using List.find?_some hstate
    rw [entriesOf_declared hstate]
    dsimp only at h
    split at h
    · rename_i hmarker
      rw [if_pos hmarker]
      cases h
      exact .of_none rfl (r.enterStep.close_filled .finished s)
    rename_i hmarker
    rw [if_neg hmarker]
    split at h
    · rename_i error s₁ htask
      have htakes := Course.takeTask_takes hentered hfree htask
      cases h
      exact htakes.entered_none hentered.home rfl (r.enterStep.close_filled .failed s₁)
        fun _ he => by cases he; rfl
    · rename_i task s₁ htask
      have htakes := Course.takeTask_takes hentered hfree htask
      rw [← hid] at h
      cases h
      refine htakes.entered_active hentered.home rfl ?_
      exact congrArg Fittings.filled (Course.subscribe_fittings ..)

section

variable {state : State} {t : Threshold}

theorem begins?_clear (ht : r.Tends lane s) (h : r.begins? s = some t) :
    t.engine.course.Clear lane s t.stage := by
  unfold begins? at h
  split at h
  · cases h
  · rename_i hrest
    cases h
    exact .begin ht hrest

theorem leaves?_clear (ht : r.Tends lane s) (hrun : r.status = .running)
    (h : r.leaves? state s = some t) : t.engine.course.Clear lane s t.stage := by
  unfold leaves? at h
  split at h
  · cases h
  rename_i step hstep
  split at h
  · cases h
  have htried := tryTransitions_filled (step.focus r.last) state.transitions 0 true r.memo s
  split at h
  · rename_i position transition memo s₂ htry
    rw [htry] at htried
    have hweighed := (ht.withMemo memo).of_same
      (Stage.holdings_of_calms (fun _ => tryTransitions_calms htry) lane)
    unfold crosses? at h
    split at h
    · rename_i s₃ hu
      cases h
      have hupdated := congrArg Fittings.filled
        (applyUpdates_fittings (step.focus r.last) step.task transition.updates s₂)
      have hkept := hweighed.of_same
        (Stage.holdings_of_calms (fun _ => applyUpdates_calms hu) lane)
      rw [hu] at hupdated
      exact ⟨.of_no_step ht.home.home rfl, hrun, hkept.retire hstep,
        (s₃.retire_filled step.key).trans (hupdated.trans htried)⟩
    · cases h
  · cases h

theorem hears?_clear {e : Event} (ht : r.Tends lane s) (h : r.hears? e s = some t) :
    t.engine.course.Clear lane s t.stage := by
  unfold hears? at h
  split at h
  · cases h
  rename_i hready
  have hrun : r.status = .running := by
    simp only [Bool.or_eq_true, not_or, decide_eq_true_eq, Decidable.not_not] at hready
    exact hready.1
  split at h
  · cases h
  rename_i state _
  split at h
  · split at h
    · rename_i hf
      have hforwarded := congrArg Fittings.filled (forward_fittings e state.forwards s)
      rw [hf] at hforwarded
      have hsame := Stage.holdings_of_calms (fun _ => forward_calms hf) lane
      exact (leaves?_clear (ht.of_same hsame) hrun h).after hforwarded
    · cases h
  · exact leaves?_clear ht hrun h

theorem goesOn?_clear (ht : r.Tends lane s) (h : r.goesOn? s = some t) :
    t.engine.course.Clear lane s t.stage := by
  unfold goesOn? at h
  split at h
  · cases h
  rename_i hstatus
  have hrun : r.status = .running := by simpa using hstatus
  split at h
  · cases h
  split at h
  · rename_i hlost
    cases h
    exact .reenter ht hrun hlost
  · obtain ⟨state, -, hleaves⟩ := Option.bind_eq_some_iff.mp h
    exact leaves?_clear ht hrun hleaves

end

end MachineRun

/-! ## Engines -/

namespace Engine

variable {lane : Lane} {e : Engine} {o : Order} {s : Stage} {t : Threshold}

theorem begins?_clear (ht : e.course.Tends lane s) (h : e.begins? s = some t) :
    t.engine.course.Clear lane s t.stage := by
  cases e with
  | script r => exact ScriptRun.begins?_clear ht h
  | machine r => exact MachineRun.begins?_clear ht h

/-- Where an engine comes to enter steps, its lane is free. -/
theorem passage?_clear (ht : e.course.Tends lane s) (h : e.passage? o s = some t) :
    t.engine.course.Clear lane s t.stage := by
  cases o with
  | start => exact begins?_clear ht h
  | hear event =>
    cases e with
    | script r => exact ScriptRun.hears?_clear ht h
    | machine r => exact MachineRun.hears?_clear ht h
  | resume =>
    cases e with
    | script r => exact ScriptRun.goesOn?_clear ht h
    | machine r => exact MachineRun.goesOn?_clear ht h
  | restart =>
    have hstopped : (e.stop s).1.course.Tends lane (e.course.clearing s) := by
      simp only [stop, withCourse_course]
      exact Course.clearing_tends ht.home s
    exact (begins?_clear hstopped h).after (e.course.stop_still s).filled

end Engine

/-- The entries that are made from a threshold on. -/
def Threshold.entries : Threshold → List Entry
  | script r s => ScriptRun.entriesFrom (r.script.instructions.drop r.pc) r s
  | machine id r s => r.entriesOf id s

/-- An order that an engine was given on a stage. -/
structure Deed where
  engine : Engine
  order : Order
  stage : Stage

namespace Deed

def outcome (d : Deed) : Progress × Engine × Stage := d.engine.obey d.order d.stage

/-- The entries that are made when the order is carried out. -/
def entries (d : Deed) : List Entry :=
  match d.engine.passage? d.order d.stage with
  | some t => t.entries
  | none => []

/-- Every step with a source that is entered is given a task of its own, and no slot is filled
otherwise. -/
structure Fresh (lane : Lane) (d : Deed) : Prop where
  fresh : ∀ e ∈ d.entries, e.key.lane = lane ∧ e.Fresh
  /-- A step that is given no task fails the run. -/
  fails : ∀ e ∈ d.entries, ∀ error, e.result = .error error → d.outcome.1 = .failed error
  filled : d.outcome.2.2.slots.filled =
    (d.entries.filterMap Entry.filling?).reverse ++ d.stage.slots.filled
  /-- A step that has a task and was not active before was given the task on entry. -/
  step : ∀ step task, d.outcome.2.1.course.step = some step → step.task = some task →
    d.engine.course.step = some step ∨ ∃ e ∈ d.entries, e.key = step.key ∧ e.result = .ok task

theorem fresh_of_entered {d : Deed} {lane : Lane}
    (h : Course.Entered lane d.entries d.stage d.outcome.1 d.outcome.2.1.course d.outcome.2.2) :
    d.Fresh lane :=
  ⟨h.fresh, h.fails, h.filled, fun step task hstep htask => .inr (h.step step task hstep htask)⟩

/-- An engine that tends its lane enters steps afresh, whatever it is told. -/
theorem fresh {d : Deed} {lane : Lane} (ht : d.engine.course.Tends lane d.stage) :
    d.Fresh lane := by
  obtain ⟨e, o, s⟩ := d
  cases h : e.passage? o s with
  | none =>
    have hstill := Engine.obey_still h
    have hentries : Deed.entries ⟨e, o, s⟩ = [] := by
      unfold entries
      rw [h]
    refine ⟨by simp [hentries], by simp [hentries], ?_, fun step task hstep _ => ?_⟩
    · rw [hentries]
      exact hstill.filled
    · rcases hstill.step with hkept | hnone
      · exact .inl (hkept.symm.trans hstep)
      · cases hnone.symm.trans hstep
  | some t =>
    refine fresh_of_entered ?_
    have hentries : Deed.entries ⟨e, o, s⟩ = t.entries := by
      unfold entries
      rw [h]
    have houtcome : Deed.outcome ⟨e, o, s⟩ = t.enter := Engine.obey_enters h
    rw [hentries, houtcome]
    have hclear := Engine.passage?_clear ht h
    cases t with
    | script r s₁ =>
      exact (ScriptRun.enterFrom_entered hclear.home hclear.running hclear.free
        (Eq.refl (r.enter s₁))).before hclear.filled
    | machine id r s₁ =>
      exact (MachineRun.enter_entered hclear.home hclear.free
        (Eq.refl (r.enter id s₁))).before hclear.filled

end Deed

end Conductor
