import Conductor.Engine.Course
import Conductor.Proofs.Stage.Moves

/-!
A course runs in a lane when its steps have slots of that lane. Whatever a course does for a run, it
makes moves of its lane.
-/

namespace Conductor

namespace Course

structure RunsIn (lane : Lane) (c : Course) : Prop where
  home : c.lane = lane
  step : ∀ step, c.step = some step → step.key.lane = lane

variable {lane : Lane} {loud : Bool} {c c' : Course} {s s' : Stage}

theorem RunsIn.of_no_step (hl : c.lane = lane) (hs : c.step = none) : c.RunsIn lane :=
  ⟨hl, fun step h => by simp [hs] at h⟩

theorem RunsIn.of_eq (h : c.RunsIn lane) (hl : c'.lane = c.lane) (hs : c'.step = c.step) :
    c'.RunsIn lane :=
  ⟨hl.trans h.home, fun step hc => h.step step (hs ▸ hc)⟩

theorem RunsIn.key (h : c.RunsIn lane) (label : String) : (c.key label).lane = lane := h.home

theorem idle_runsIn (lane : Lane) (depth : Nat) : (idle lane depth).RunsIn lane :=
  .of_no_step rfl rfl

theorem close_calms {status : EngineStatus} (hc : c.RunsIn lane)
    (h : c.close status s = (c', s')) : s.Calms lane loud s' ∧ c'.RunsIn lane := by
  unfold close at h
  cases h
  obtain rfl := hc.home
  exact ⟨.single .retireLane, .of_no_step rfl rfl⟩

theorem conclude_calms {status : EngineStatus} {record : Trail.Record} (hc : c.RunsIn lane)
    (hrecord : record.ofEngine = true) : s.Calms lane loud (c.conclude status record s).2 ∧
      (c.conclude status record s).1.RunsIn lane := by
  obtain ⟨hm, hc'⟩ := close_calms hc (Eq.refl (c.close status s))
  exact ⟨hm.tail (.record record hrecord), hc'⟩

theorem stop_calms (hc : c.RunsIn lane) (h : c.stop s = (c', s')) :
    s.Calms lane loud s' ∧ c'.RunsIn lane :=
  close_calms hc h

theorem retireCurrent_calms (hc : c.RunsIn lane) (h : c.retireCurrent s = (c', s')) :
    s.Calms lane loud s' ∧ c'.RunsIn lane := by
  unfold retireCurrent at h
  split at h
  · rename_i step hstep
    have hkey := hc.step step hstep
    split at h
    · cases h
      obtain rfl := hc.home
      refine ⟨.tail (.single (.retire step.key hkey)) (.await .empty), rfl, ?_⟩
      intro other ho
      cases ho
      exact hkey
    · cases h
      exact ⟨.refl, hc⟩
  · cases h
    exact ⟨.refl, hc⟩

theorem takeTask_calms {label : String} {source : Option Source}
    {result : Except Error (Option Handle)} (hc : c.RunsIn lane)
    (h : c.takeTask label source s = (result, s')) : s.Calms lane loud s' := by
  unfold takeTask at h
  split at h
  · cases h
    exact .refl
  · cases h
    exact .single (.resolve _ _ hc.home)

theorem subscribe_calms (hc : c.RunsIn lane) (guards : List Guard) (s : Stage) :
    s.Calms lane loud (c.subscribe guards s) := by
  unfold subscribe
  split
  · rw [hc.home]
    exact Stage.subscribe_calms ..
  · exact .refl

end Course

end Conductor
