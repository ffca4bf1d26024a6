import Conductor.Fault.Pattern
import Conductor.Proofs.Json.Alike
import Conductor.Variable

/-!
What models are made of comes back from its JSON: values, guards, patterns over faults, declarations
and assignments are restored from the trees that they are written as, with the members of objects in
any order.
-/

namespace Conductor

open Json (Alike AlikeItems lookup Naming)

variable {j : Json}

theorem ValueKind.ofName?_display (k : ValueKind) :
    (Spelled.ofName? k.display : Option ValueKind) = some k := by
  cases k <;> decide

theorem ValueKind.ofJson?_alike (k : ValueKind) (h : (Spelled.toJson k).Alike j) :
    Spelled.ofJson? j = some k := by
  rw [h.str_eq]
  exact k.ofName?_display

theorem EventName.ofJson?_alike (name : EventName) (h : name.toJson.Alike j) :
    EventName.ofJson? j = some name := by
  rw [h.str_eq]
  rfl

theorem Handle.ofJson?_alike (handle : Handle) (h : handle.toJson.Alike j) :
    Handle.ofJson? j = some handle := by
  obtain ⟨members, rfl, -, hhit⟩ := h.obj_inv (by simp)
  obtain ⟨_, hid, hid'⟩ := hhit "id" _ rfl
  obtain ⟨_, hmodel, hmodel'⟩ := hhit "model" _ rfl
  obtain rfl := hid'.str_eq
  obtain rfl := hmodel'.str_eq
  simp [ofJson?, Json.record?, hid, hmodel, TaskId.ofJson?, Json.str?]

/-! ## Values -/

namespace Value

theorem int64?_toInt (n : Int64) : (Json.int n.toInt).int64? = some n := by
  have hlow := n.le_toInt
  have hhigh := n.toInt_lt
  rw [Json.int64?, Json.intWithin?, if_pos (by omega), Option.map_some, Int64.ofInt_toInt]

theorem memberItems?_eq (naming : Naming) (members : List (String × Json)) :
    memberItems? naming members = (lookup "value" members).bind (items? naming) := by
  induction members with
  | nil => rfl
  | cons m rest ih =>
    obtain ⟨name, j⟩ := m
    rw [memberItems?, Json.lookup_cons, ih]
    by_cases h : name = "value" <;> simp [h]

/-- A value in an object that names its kind. -/
theorem read?_obj (naming : Naming) {members : List (String × Json)} {name : String}
    (h : lookup "kind" members = some (.str name)) :
    read? naming (.obj members) = ofContent? name (lookup "value" members)
      ((lookup "value" members).bind (items? naming)) := by
  rw [read?, Json.tagged?_obj "value" h, memberItems?_eq]

mutual

theorem read?_alike (naming : Naming) : (v : Value) → {j : Json} → v.toJson.Alike j →
    read? naming j = some v
  | null, _, h => by
    obtain ⟨_, rfl, halike⟩ := h.single_inv
    rw [halike.str_eq, read?_obj naming (Json.lookup_cons ..)]
    rfl
  | bool b, _, h => by
    obtain ⟨_, _, rfl, hkind, hvalue, halike⟩ := h.tagged_inv (by decide)
    rw [read?_obj naming hkind, hvalue, halike.bool_eq]
    rfl
  | int n, _, h => by
    obtain ⟨_, _, rfl, hkind, hvalue, halike⟩ := h.tagged_inv (by decide)
    rw [read?_obj naming hkind, hvalue, halike.int_eq]
    exact congrArg (Option.map Value.int) (int64?_toInt n)
  | text s, _, h => by
    obtain ⟨_, _, rfl, hkind, hvalue, halike⟩ := h.tagged_inv (by decide)
    rw [read?_obj naming hkind, hvalue, halike.str_eq]
    rfl
  | task handle, _, h => by
    obtain ⟨_, _, rfl, hkind, hvalue, halike⟩ := h.tagged_inv (by decide)
    rw [read?_obj naming hkind, hvalue]
    exact congrArg (Option.map Value.task) (handle.ofJson?_alike halike)
  | list items, _, h => by
    obtain ⟨_, _, rfl, hkind, hvalue, halike⟩ := h.tagged_inv (by decide)
    obtain ⟨_, rfl, hitems⟩ := halike.arr_inv
    rw [read?_obj naming hkind, hvalue]
    exact congrArg (Option.map Value.list) (readAll?_alike naming items hitems)

theorem readAll?_alike (naming : Naming) : (items : List Value) → {js : List Json} →
    AlikeItems (toJsonAll items) js → readAll? naming js = some items
  | [], _, .nil => rfl
  | v :: rest, _, .cons halike hrest => by
    rw [readAll?, read?_alike naming v halike, readAll?_alike naming rest hrest]

end

end Value

/-! ## Guards -/

theorem TaskRef.read?_alike (naming : Naming) (task : TaskRef) (h : task.toJson.Alike j) :
    TaskRef.read? naming j = some task := by
  cases task with
  | current =>
    obtain ⟨_, rfl, halike⟩ := h.single_inv
    rw [halike.str_eq, read?, Json.tagged?_obj "name" (Json.lookup_cons ..)]
    rfl
  | root =>
    obtain ⟨_, rfl, halike⟩ := h.single_inv
    rw [halike.str_eq, read?, Json.tagged?_obj "name" (Json.lookup_cons ..)]
    rfl
  | held name =>
    obtain ⟨_, _, rfl, href, hname, halike⟩ := h.tagged_inv (by decide)
    rw [read?, Json.tagged?_obj "name" href, hname, halike.str_eq]
    rfl

/-- The fields of a leaf are set aside until its form is known, and named loosely then. -/
theorem Leaf.ofJson?_alike (leaf : Leaf) (h : leaf.toJson.Alike j) :
    Leaf.ofJson? j = some leaf := by
  obtain ⟨task, event⟩ | ⟨name, value⟩ := leaf
  · obtain ⟨members, rfl, -, hhit⟩ := h.obj_inv (by simp)
    obtain ⟨_, hleaf, hleaf'⟩ := hhit "leaf" _ rfl
    obtain ⟨_, htask, htask'⟩ := hhit "task" _ rfl
    obtain ⟨_, hevent, hevent'⟩ := hhit "event" _ rfl
    rw [hleaf'.str_eq] at hleaf
    obtain ⟨rest, hform, hrest⟩ := Json.form?_obj hleaf
    simp [ofJson?, hform, Json.record?, hrest, htask, hevent, task.read?_alike .loose htask',
      event.ofJson?_alike hevent']
  · obtain ⟨members, rfl, -, hhit⟩ := h.obj_inv (by simp)
    obtain ⟨_, hleaf, hleaf'⟩ := hhit "leaf" _ rfl
    obtain ⟨_, hname, hname'⟩ := hhit "name" _ rfl
    obtain ⟨_, hvalue, hvalue'⟩ := hhit "value" _ rfl
    rw [hleaf'.str_eq] at hleaf
    rw [hname'.str_eq] at hname
    obtain ⟨rest, hform, hrest⟩ := Json.form?_obj hleaf
    simp [ofJson?, hform, Json.record?, hrest, hname, hvalue, Json.str?,
      value.read?_alike .loose hvalue']

namespace Guard

mutual

theorem ofJson?_alike : (guard : Guard) → {j : Json} → guard.toJson.Alike j →
    ofJson? j = some guard
  | always, _, h => by
    rw [h.str_eq]
    rfl
  | leaf l, _, h => by
    obtain ⟨_, rfl, halike⟩ := h.single_inv
    exact congrArg (Option.map leaf) (l.ofJson?_alike halike)
  | all guards, _, h => by
    obtain ⟨_, rfl, halike⟩ := h.single_inv
    obtain ⟨_, rfl, hitems⟩ := halike.arr_inv
    exact congrArg (Option.map all) (ofJsonAll?_alike guards hitems)
  | any guards, _, h => by
    obtain ⟨_, rfl, halike⟩ := h.single_inv
    obtain ⟨_, rfl, hitems⟩ := halike.arr_inv
    exact congrArg (Option.map any) (ofJsonAll?_alike guards hitems)
  | not guard, _, h => by
    obtain ⟨_, rfl, halike⟩ := h.single_inv
    exact congrArg (Option.map not) (ofJson?_alike guard halike)

theorem ofJsonAll?_alike : (guards : List Guard) → {js : List Json} →
    AlikeItems (toJsonAll guards) js → ofJsonAll? js = some guards
  | [], _, .nil => rfl
  | g :: rest, _, .cons halike hrest => by
    rw [ofJsonAll?, ofJson?_alike g halike, ofJsonAll?_alike rest hrest]

end

end Guard

/-! ## Patterns -/

namespace FaultPattern

mutual

theorem ofJson?_alike : (pattern : FaultPattern) → {j : Json} → pattern.toJson.Alike j →
    ofJson? j = some pattern
  | any, _, h => by
    rw [h.str_eq]
    rfl
  | category name, _, h => by
    obtain ⟨_, rfl, halike⟩ := h.single_inv
    rw [halike.str_eq]
    rfl
  | messageContains text, _, h => by
    obtain ⟨_, rfl, halike⟩ := h.single_inv
    rw [halike.str_eq]
    rfl
  | all patterns, _, h => by
    obtain ⟨_, rfl, halike⟩ := h.single_inv
    obtain ⟨_, rfl, hitems⟩ := halike.arr_inv
    exact congrArg (Option.map all) (ofJsonAll?_alike patterns hitems)
  | anyOf patterns, _, h => by
    obtain ⟨_, rfl, halike⟩ := h.single_inv
    obtain ⟨_, rfl, hitems⟩ := halike.arr_inv
    exact congrArg (Option.map anyOf) (ofJsonAll?_alike patterns hitems)
  | not pattern, _, h => by
    obtain ⟨_, rfl, halike⟩ := h.single_inv
    exact congrArg (Option.map not) (ofJson?_alike pattern halike)

theorem ofJsonAll?_alike : (patterns : List FaultPattern) → {js : List Json} →
    AlikeItems (toJsonAll patterns) js → ofJsonAll? js = some patterns
  | [], _, .nil => rfl
  | p :: rest, _, .cons halike hrest => by
    rw [ofJsonAll?, ofJson?_alike p halike, ofJsonAll?_alike rest hrest]

end

end FaultPattern

/-! ## Variables -/

/-- The content of a rule is restored however its kind is named. -/
theorem Rule.ofJson?_alike (rule : Rule) (h : rule.toJson.Alike j) :
    Rule.ofJson? j = some rule := by
  cases rule with
  | constant value =>
    obtain ⟨_, _, rfl, hrule, hfrom, halike⟩ := h.tagged_inv (by decide)
    rw [ofJson?, Json.tagged?_obj "from" hrule, hfrom]
    exact congrArg (Option.map constant) (value.read?_alike _ halike)
  | argument name =>
    obtain ⟨_, _, rfl, hrule, hfrom, halike⟩ := h.tagged_inv (by decide)
    rw [ofJson?, Json.tagged?_obj "from" hrule, hfrom, halike.str_eq]
    rfl
  | stepOutput label =>
    obtain ⟨_, _, rfl, hrule, hfrom, halike⟩ := h.tagged_inv (by decide)
    rw [ofJson?, Json.tagged?_obj "from" hrule, hfrom, halike.str_eq]
    rfl
  | assigned =>
    obtain ⟨_, rfl, halike⟩ := h.single_inv
    rw [halike.str_eq, ofJson?, Json.tagged?_obj "from" (Json.lookup_cons ..)]
    rfl

/-- A kind that is not declared is left out, and one that is missing is none. -/
theorem Declaration.ofJson?_alike (d : Declaration) (h : d.toJson.Alike j) :
    Declaration.ofJson? j = some d := by
  obtain ⟨name, kind, rule⟩ := d
  cases kind with
  | none =>
    obtain ⟨members, rfl, hmiss, hhit⟩ := h.obj_inv (by simp [optionalField])
    obtain ⟨_, hname, hname'⟩ := hhit "name" _ rfl
    obtain ⟨_, hrule, hrule'⟩ := hhit "resolution" _ rfl
    have hkind := hmiss "kind" rfl
    rw [hname'.str_eq] at hname
    simp [ofJson?, Json.record?, hname, hkind, hrule, Json.optional, Json.str?,
      rule.ofJson?_alike hrule']
  | some kind =>
    obtain ⟨members, rfl, -, hhit⟩ := h.obj_inv (by simp [optionalField])
    obtain ⟨_, hname, hname'⟩ := hhit "name" _ rfl
    obtain ⟨_, hkind, hkind'⟩ := hhit "kind" _ rfl
    obtain ⟨_, hrule, hrule'⟩ := hhit "resolution" _ rfl
    rw [hname'.str_eq] at hname
    have hrestored := kind.ofJson?_alike hkind'
    obtain rfl := hkind'.str_eq
    simp [ofJson?, Json.record?, hname, hkind, hrule, Json.optional, Json.str?,
      rule.ofJson?_alike hrule', hrestored]

theorem Assignment.Origin.ofJson?_alike (origin : Assignment.Origin) (h : origin.toJson.Alike j) :
    Assignment.Origin.ofJson? j = some origin := by
  cases origin with
  | constant value =>
    obtain ⟨_, rfl, halike⟩ := h.single_inv
    exact congrArg (Option.map constant) (value.read?_alike .strict halike)
  | payload task event =>
    obtain ⟨_, rfl, halike⟩ := h.single_inv
    obtain ⟨members, rfl, -, hhit⟩ := halike.obj_inv (by simp)
    obtain ⟨_, htask, htask'⟩ := hhit "task" _ rfl
    obtain ⟨_, hevent, hevent'⟩ := hhit "event" _ rfl
    simp [ofJson?, Json.choice?, Json.record?, htask, hevent, TaskRef.ofJson?,
      task.read?_alike .strict htask', event.ofJson?_alike hevent']
  | currentTask =>
    rw [h.str_eq]
    rfl
  | copied name =>
    obtain ⟨_, rfl, halike⟩ := h.single_inv
    rw [halike.str_eq]
    rfl

theorem Assignment.ofJson?_alike (a : Assignment) (h : a.toJson.Alike j) :
    Assignment.ofJson? j = some a := by
  obtain ⟨members, rfl, -, hhit⟩ := h.obj_inv (by simp)
  obtain ⟨_, htarget, htarget'⟩ := hhit "variable" _ rfl
  obtain ⟨_, horigin, horigin'⟩ := hhit "source" _ rfl
  rw [htarget'.str_eq] at htarget
  simp [ofJson?, Json.record?, htarget, horigin, Json.str?, a.origin.ofJson?_alike horigin']

/-- Values, guards, patterns over faults, declarations and assignments come back from what they are
written as, with the members of objects in any order. No two of a sort are written alike, and what
was read from a tree stays the same when it is written and read again. -/
theorem json_restores :
    Json.Restores Value.toJson Value.ofJson? ∧
      Json.Restores Guard.toJson Guard.ofJson? ∧
      Json.Restores FaultPattern.toJson FaultPattern.ofJson? ∧
      Json.Restores Declaration.toJson Declaration.ofJson? ∧
      Json.Restores Assignment.toJson Assignment.ofJson? :=
  ⟨.of_restored fun value _ => value.read?_alike .strict,
    .of_restored fun guard _ => guard.ofJson?_alike,
    .of_restored fun pattern _ => pattern.ofJson?_alike,
    .of_restored fun declaration _ => declaration.ofJson?_alike,
    .of_restored fun assignment _ => assignment.ofJson?_alike⟩

end Conductor
