import Conductor.Proofs.Plan.Progress
import Conductor.Trail
import Mathlib.Data.String.Basic

/-!
The display of tasks. A handle is shown with the first eight bytes of its identifier, and so the bytes
must come to an end where a character does. Where they do, whatever puts the task into words succeeds.
Where a character goes on beyond them, all of it fails: the short form, the display, the records of the
trail, be it kept or not, and the refusals of the plan. It does not come to that with the tasks of a
plan, whose identifiers are plain, but handles come from elsewhere too.
-/

namespace Conductor

open String (utf8Len)

/-- A character begins before the end of the first `size` bytes and ends behind it. -/
def Cuts (size : Nat) (text : List Char) : Prop :=
  ∃ front c back, text = front ++ c :: back ∧ utf8Len front < size ∧
    size < utf8Len front + c.utf8Size

theorem not_cuts_nil (size : Nat) : ¬ Cuts size [] := by
  rintro ⟨front, c, back, h, -⟩
  simp at h

theorem not_cuts_zero (text : List Char) : ¬ Cuts 0 text := by
  rintro ⟨front, c, back, -, h, -⟩
  exact Nat.not_lt_zero _ h

/-- Behind a character that fits, the cut is looked for in what is left. -/
theorem cuts_cons_of_le {size : Nat} {c : Char} {rest : List Char} (h : c.utf8Size ≤ size) :
    Cuts size (c :: rest) ↔ Cuts (size - c.utf8Size) rest := by
  constructor
  · rintro ⟨front, d, back, htext, hfront, hcut⟩
    cases front with
    | nil =>
      obtain ⟨rfl, -⟩ := List.cons.inj htext
      simp only [utf8Len] at hcut
      omega
    | cons first front =>
      obtain ⟨rfl, rfl⟩ := List.cons.inj htext
      simp only [utf8Len] at hfront hcut
      exact ⟨front, d, back, rfl, by omega, by omega⟩
  · rintro ⟨front, d, back, rfl, hfront, hcut⟩
    refine ⟨c :: front, d, back, rfl, ?_, ?_⟩
    · simp only [utf8Len]
      omega
    · simp only [utf8Len]
      omega

theorem cuts_cons_of_lt {size : Nat} {c : Char} {rest : List Char} (hpos : 0 < size)
    (h : size < c.utf8Size) : Cuts size (c :: rest) :=
  ⟨[], c, rest, rfl, hpos, by simpa [utf8Len] using h⟩

/-- Nothing fills the bytes exactly where a character goes on beyond them. -/
theorem takeBytes?_eq_none_iff {size : Nat} {text : List Char} :
    takeBytes? size text = none ↔ Cuts size text := by
  induction text generalizing size with
  | nil => simp [takeBytes?, not_cuts_nil]
  | cons c rest ih =>
    cases size with
    | zero => simp [takeBytes?, not_cuts_zero]
    | succ size =>
      unfold takeBytes?
      split
      · rename_i hfits
        rw [Option.map_eq_none_iff, ih, cuts_cons_of_le hfits]
      · rename_i hlong
        exact iff_of_true rfl (cuts_cons_of_lt (Nat.succ_pos _) (by omega))

/-- What is taken is the beginning of the text that has as many bytes, or all of it. -/
theorem takeBytes?_eq_some_iff {size : Nat} {text front : List Char} :
    takeBytes? size text = some front ↔
      front <+: text ∧ utf8Len front = min size (utf8Len text) := by
  induction text generalizing size front with
  | nil =>
    simp only [takeBytes?, Option.some.injEq, List.prefix_nil, utf8Len, Nat.min_zero]
    exact ⟨fun h => h ▸ ⟨rfl, rfl⟩, fun h => h.1.symm⟩
  | cons c rest ih =>
    have hpos := c.utf8Size_pos
    cases size with
    | zero =>
      simp only [takeBytes?, Nat.zero_min, String.utf8Len_eq_zero, Option.some.injEq]
      exact ⟨fun h => ⟨h ▸ List.nil_prefix, h.symm⟩, fun h => h.2.symm⟩
    | succ size =>
      simp only [takeBytes?, utf8Len]
      split
      · rw [Option.map_eq_some_iff]
        constructor
        · rintro ⟨taken, htaken, rfl⟩
          obtain ⟨hstarts, hlength⟩ := ih.mp htaken
          refine ⟨List.cons_prefix_cons.mpr ⟨rfl, hstarts⟩, ?_⟩
          simp only [utf8Len]
          omega
        · rintro ⟨hstarts, hlength⟩
          rcases List.prefix_cons_iff.mp hstarts with rfl | ⟨taken, rfl, hrest⟩
          · simp only [utf8Len] at hlength
            omega
          · simp only [utf8Len] at hlength
            exact ⟨taken, ih.mpr ⟨hrest, by omega⟩, rfl⟩
      · refine iff_of_false nofun fun ⟨hstarts, hlength⟩ => ?_
        rcases List.prefix_cons_iff.mp hstarts with rfl | ⟨taken, rfl, -⟩
        · simp only [utf8Len] at hlength
          omega
        · simp only [utf8Len] at hlength
          omega

/-- A character of an identifier goes on beyond the eighth byte, where its short form ends. -/
def TaskId.Cut (id : TaskId) : Prop := Cuts 8 id.text.toList

/-- Where each character is one byte, any number of bytes ends with one. -/
theorem TaskId.not_cut_of_plain {id : TaskId} (h : ∀ c ∈ id.text.toList, c.utf8Size = 1) :
    ¬ id.Cut := by
  rintro ⟨front, c, back, htext, hfront, hcut⟩
  have hplain : c.utf8Size = 1 := h c (by rw [htext]; simp)
  omega

theorem TaskId.short?_eq_none_iff {id : TaskId} : id.short? = none ↔ id.Cut := by
  rw [short?, Option.map_eq_none_iff, takeBytes?_eq_none_iff, Cut]

theorem TaskId.short?_eq_some_iff {id : TaskId} {short : String} :
    id.short? = some short ↔
      short.toList <+: id.text.toList ∧ short.utf8ByteSize = min 8 id.text.utf8ByteSize := by
  rw [← String.utf8Len_toList, ← String.utf8Len_toList, ← takeBytes?_eq_some_iff, short?,
    Option.map_eq_some_iff]
  constructor
  · rintro ⟨taken, htaken, rfl⟩
    rwa [String.toList_ofList]
  · exact fun h => ⟨_, h, String.ofList_toList⟩

namespace Handle

variable {h : Handle}

theorem display?_eq_none_iff : h.display? = none ↔ h.id.Cut := by
  rw [display?, Option.map_eq_none_iff, TaskId.short?_eq_none_iff]

/-- Words are wanting only for a task that cannot be shown. -/
theorem inWords_eq_unshowable_iff {error : String → ProviderError} {id : TaskId}
    (herror : ∀ shown, error shown ≠ .unshowable id) :
    h.inWords error = .unshowable id ↔ h.id.Cut ∧ h.id = id := by
  unfold inWords
  cases hshown : h.display? with
  | none => simp [display?_eq_none_iff.mp hshown]
  | some shown =>
    have hwhole : ¬ h.id.Cut := fun hcut => by
      cases (display?_eq_none_iff.mpr hcut).symm.trans hshown
    simp [herror, hwhole]

end Handle

/-! ## The trail -/

namespace Trail

/-- A trail that is not kept needs the words too. -/
theorem recordShown?_eq_none_iff {t : Trail} {r : Record} :
    t.recordShown? r = none ↔ r.text? = none := by
  rw [recordShown?, Option.map_eq_none_iff]

theorem resolved_text?_eq_none_iff {h : Handle} {role : String} :
    (Record.resolved h role).text? = none ↔ h.id.Cut := by
  rw [Record.text?, Option.map_eq_none_iff, Handle.display?_eq_none_iff]

theorem retired_text?_eq_none_iff {h : Handle} : (Record.retired h).text? = none ↔ h.id.Cut := by
  rw [Record.text?, Option.map_eq_none_iff, Handle.display?_eq_none_iff]

end Trail

/-! ## Tasks of a plan -/

theorem utf8Size_of_isDigit {c : Char} (h : c.isDigit = true) : c.utf8Size = 1 := by
  have hle : c.val ≤ '9'.val := (Bool.and_eq_true_iff.mp h).2 |> of_decide_eq_true
  exact Char.utf8Size_eq_one_iff.mpr (UInt32.le_trans hle (by decide))

namespace Plan

variable {p : Plan} {h : Handle}

theorem not_cut_idOf (n : Nat) : ¬ (idOf n).Cut := by
  refine TaskId.not_cut_of_plain fun c hc => ?_
  have htext : (idOf n).text.toList = "task-".toList ++ Nat.toDigits 10 n := by
    simp [idOf]
  have hwhole : "task-".toList.all (fun c => c.utf8Size == 1) = true := by decide
  rw [htext, List.mem_append] at hc
  rcases hc with hword | hdigit
  · exact eq_of_beq (List.all_eq_true.mp hwhole c hword)
  · exact utf8Size_of_isDigit (Nat.isDigit_of_mem_toDigits (by omega) (by omega) hdigit)

theorem Numbered.not_cut (hp : p.Numbered) {task : TaskId} (h : (p.task? task).isSome = true) :
    ¬ task.Cut := by
  obtain ⟨t, ht⟩ := Option.isSome_iff_exists.mp h
  obtain ⟨n, -, rfl⟩ := hp task t ht
  exact not_cut_idOf n

/-! ## Refusals -/

theorem start_unshowable_iff :
    p.start h = .error (.unshowable h.id) ↔
      h.id.Cut ∧ ∃ t, p.task? h.id = some t ∧ t.state.isTerminal = true := by
  unfold start
  cases p.task? h.id with
  | none => simp
  | some t =>
    cases hs : t.state <;>
      simp [hs, TaskState.isTerminal, Handle.inWords_eq_unshowable_iff]

theorem attach_unshowable_iff {parent : TaskId} {role : String} :
    p.attach parent h role = .error (.unshowable h.id) ↔
      h.id.Cut ∧ p.tasks.contains parent = true ∧ p.tasks.contains h.id = true ∧
        ∃ a ∈ p.childrenOf parent, a.isOf h.id role = true := by
  unfold attach
  rw [← List.any_eq_true]
  cases p.tasks.contains parent with
  | false => simp
  | true =>
    cases p.tasks.contains h.id with
    | false => simp
    | true =>
      cases (p.childrenOf parent).any fun a => a.isOf h.id role with
      | false => simp
      | true => simp [Handle.inWords_eq_unshowable_iff]

theorem detach_unshowable_iff {parent : TaskId} {role : String} :
    p.detach parent h role = .error (.unshowable h.id) ↔
      h.id.Cut ∧ ¬ ∃ a ∈ p.childrenOf parent, a.isOf h.id role = true := by
  unfold detach
  rw [← List.any_eq_true]
  cases (p.childrenOf parent).any fun a => a.isOf h.id role with
  | false => simp [Handle.inWords_eq_unshowable_iff]
  | true =>
    simp only [if_true, not_true, and_false, iff_false]
    split <;> nofun

end Plan

/-! ## What can be shown -/

/-- The short form of an identifier is its beginning of eight bytes, or all of it where it has no more.
There is one unless a character goes on beyond the eighth byte, and so it is with all that shows the
task: its display, the records that it was resolved and retired, also on a trail that is not kept, and
the words in which the plan refuses to start it again, to attach it twice in a role, and to detach it
from one that it does not have. No identifier of a task that a plan knows is cut. -/
theorem shown_unless_cut (h : Handle) :
    (∀ short, h.id.short? = some short ↔
      short.toList <+: h.id.text.toList ∧ short.utf8ByteSize = min 8 h.id.text.utf8ByteSize) ∧
    (h.id.short? = none ↔ h.id.Cut) ∧
    (h.display? = none ↔ h.id.Cut) ∧
    (∀ (t : Trail) role,
      (t.recordShown? (.resolved h role) = none ↔ h.id.Cut) ∧
      (t.recordShown? (.retired h) = none ↔ h.id.Cut)) ∧
    ∀ (p : Plan) parent role,
      (p.start h = .error (.unshowable h.id) ↔
        h.id.Cut ∧ ∃ t, p.task? h.id = some t ∧ t.state.isTerminal = true) ∧
      (p.attach parent h role = .error (.unshowable h.id) ↔
        h.id.Cut ∧ p.tasks.contains parent = true ∧ p.tasks.contains h.id = true ∧
          ∃ a ∈ p.childrenOf parent, a.isOf h.id role = true) ∧
      (p.detach parent h role = .error (.unshowable h.id) ↔
        h.id.Cut ∧ ¬ ∃ a ∈ p.childrenOf parent, a.isOf h.id role = true) ∧
      (p.Reachable → (p.task? h.id).isSome = true → ¬ h.id.Cut) := by
  refine ⟨fun _ => TaskId.short?_eq_some_iff, TaskId.short?_eq_none_iff,
    Handle.display?_eq_none_iff, fun t role => ⟨?_, ?_⟩, fun _ _ _ =>
    ⟨Plan.start_unshowable_iff, Plan.attach_unshowable_iff, Plan.detach_unshowable_iff,
      fun hp => hp.numbered.not_cut⟩⟩
  · rw [Trail.recordShown?_eq_none_iff, Trail.resolved_text?_eq_none_iff]
  · rw [Trail.recordShown?_eq_none_iff, Trail.retired_text?_eq_none_iff]

/-- A handle whose identifier has nine bytes, of which the last two are one character. -/
def Handle.accented : Handle := ⟨⟨"1234567é"⟩, "Dock"⟩

theorem accented_not_shown :
    Handle.accented.id.short? = none ∧ Handle.accented.display? = none ∧
      (Trail.empty false).recordShown? (.retired .accented) = none ∧
      Plan.empty.detach ⟨"task-1"⟩ .accented "dock" =
        .error (.unshowable Handle.accented.id) := by
  decide

end Conductor
