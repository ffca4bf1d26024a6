import Conductor.Proofs.Dict
import Conductor.Slots

/-!
Binding the arguments of an action. The parameters are gone through in order, and each one that finds
nothing bound puts its default in, which the parameters after it then find. So under each declared name
there is in the end what was bound to it, or else the default of the first parameter of that name; and
binding fails of the first thing that is wrong with that.
-/

namespace Conductor

namespace Parameter

/-- What a name has once all parameters are gone through: what is bound to it, or else the default of
the first parameter of that name. -/
def settled? (parameters : List Parameter) (bound : Dict String Value) (name : String) :
    Option Value :=
  (bound.get? name).or ((parameters.find? fun p => p.name == name).bind Parameter.default)

/-- The default of a parameter is put in where nothing is bound. -/
def fill (bound : Dict String Value) (p : Parameter) : Dict String Value :=
  match bound.get? p.name, p.default with
  | none, some value => bound.insert p.name value
  | _, _ => bound

variable {p : Parameter} {parameters : List Parameter} {bound : Dict String Value}

theorem settled?_cons_self (p : Parameter) (parameters : List Parameter)
    (bound : Dict String Value) :
    settled? (p :: parameters) bound p.name = (bound.get? p.name).or p.default := by
  simp [settled?]

theorem get?_fill (bound : Dict String Value) (p : Parameter) (name : String) :
    (fill bound p).get? name =
      if name = p.name then (bound.get? p.name).or p.default else bound.get? name := by
  unfold fill
  split
  · rename_i value hnone hdefault
    rw [Dict.get?_insert, hnone, hdefault]
    rfl
  · rename_i hfilled
    by_cases hname : name = p.name
    · rw [if_pos hname, hname]
      cases hheld : bound.get? p.name with
      | some value => rfl
      | none =>
        cases hdefault : p.default with
        | none => rfl
        | some value => exact absurd hdefault (hfilled value hheld)
    · rw [if_neg hname]

/-- A parameter that has something to put in does not change what comes of the names. -/
theorem settled?_fill (h : ((bound.get? p.name).or p.default).isSome = true) (name : String) :
    settled? parameters (fill bound p) name = settled? (p :: parameters) bound name := by
  unfold settled?
  rw [get?_fill]
  by_cases hname : name = p.name
  · obtain ⟨value, hvalue⟩ := Option.isSome_iff_exists.mp h
    simp [hname, hvalue]
  · simp [hname, Ne.symm hname]

end Parameter

namespace Action

/-- What is wrong with a parameter when its name comes to have the given value. -/
def objection? (a : Action) (p : Parameter) : Option Value → Option BindError
  | none => some (.missingArgument a.name p.name)
  | some value =>
    match p.kind with
    | some kind =>
      if value.kind = kind then none else some (.wrongKind a.name p.name kind value.kind)
    | none => none

variable {a : Action} {bound : Dict String Value}

theorem supply_eq (a : Action) (bound : Dict String Value) (p : Parameter) :
    a.supply bound p =
      match a.objection? p ((bound.get? p.name).or p.default) with
      | some e => .error e
      | none => .ok (p.fill bound) := by
  have hcheck : ∀ arguments value, supply.check a p arguments value =
      match a.objection? p (some value) with
      | some e => .error e
      | none => .ok arguments := by
    intro arguments value
    unfold supply.check objection?
    cases p.kind with
    | none => rfl
    | some kind => by_cases hkind : value.kind = kind <;> simp [hkind]
  unfold supply Parameter.fill
  cases bound.get? p.name with
  | some value => exact hcheck bound value
  | none =>
    cases p.default with
    | some value => exact hcheck _ value
    | none => rfl

theorem settled_of_no_objection {p : Parameter} {value : Option Value}
    (h : a.objection? p value = none) : value.isSome = true := by
  cases value with
  | none => cases h
  | some value => rfl

/-- Going through the parameters ends at the first one of which something is wrong in the end. -/
theorem foldlM_supply (a : Action) (parameters : List Parameter) (bound : Dict String Value) :
    parameters.foldlM a.supply bound =
      match parameters.findSome? fun p =>
        a.objection? p (Parameter.settled? parameters bound p.name) with
      | some e => .error e
      | none => .ok (parameters.foldl Parameter.fill bound) := by
  induction parameters generalizing bound with
  | nil => rfl
  | cons p rest ih =>
    rw [List.foldlM_cons, supply_eq, List.findSome?_cons, Parameter.settled?_cons_self]
    cases hp : a.objection? p ((bound.get? p.name).or p.default) with
    | some e => rfl
    | none =>
      have hsame (name : String) : Parameter.settled? rest (Parameter.fill bound p) name =
          Parameter.settled? (p :: rest) bound name :=
        Parameter.settled?_fill (settled_of_no_objection hp) name
      simp only [← hsame]
      exact ih (p.fill bound)

theorem get?_foldl_fill (parameters : List Parameter) (bound : Dict String Value)
    (h : ∀ p ∈ parameters, (Parameter.settled? parameters bound p.name).isSome = true)
    (name : String) :
    (parameters.foldl Parameter.fill bound).get? name =
      Parameter.settled? parameters bound name := by
  induction parameters generalizing bound with
  | nil => simp [Parameter.settled?]
  | cons p rest ih =>
    have hp : ((bound.get? p.name).or p.default).isSome = true := by
      rw [← Parameter.settled?_cons_self p rest]
      exact h p List.mem_cons_self
    rw [List.foldl_cons, ih, Parameter.settled?_fill hp]
    intro q hq
    rw [Parameter.settled?_fill hp]
    exact h q (List.mem_cons_of_mem _ hq)

/-! ## What binding comes to -/

def Declares (a : Action) (name : String) : Prop := ∃ p ∈ a.parameters, p.name = name

/-- The first parameter of a name. -/
def parameter? (a : Action) (name : String) : Option Parameter :=
  a.parameters.find? fun p => p.name == name

/-- What a name of the action has in the end. -/
def value? (a : Action) (bound : Dict String Value) (name : String) : Option Value :=
  Parameter.settled? a.parameters bound name

theorem value?_eq (a : Action) (bound : Dict String Value) (name : String) :
    a.value? bound name = (bound.get? name).or ((a.parameter? name).bind Parameter.default) :=
  rfl

/-- The first thing that is wrong with bound arguments: a name that is not declared, or what is wrong
with a parameter. -/
def firstError? (a : Action) (bound : Dict String Value) : Option BindError :=
  ((a.unknown? bound).map fun name => .unknownArgument a.name name).or
    (a.parameters.findSome? fun p => a.objection? p (a.value? bound p.name))

/-- The bound arguments with the defaults of the parameters put in. -/
def complete (a : Action) (bound : Dict String Value) : Dict String Value :=
  a.parameters.foldl Parameter.fill bound

theorem bind_eq (a : Action) (bound : Dict String Value) :
    a.bind bound =
      match a.firstError? bound with
      | some e => .error e
      | none => .ok ⟨a.returns, a.complete bound⟩ := by
  unfold bind firstError?
  cases a.unknown? bound with
  | some name => rfl
  | none =>
    simp only [foldlM_supply, Option.map_none, Option.none_or, value?, complete]
    split <;> rfl

theorem unknown?_eq_none :
    a.unknown? bound = none ↔ ∀ name, (bound.get? name).isSome = true → a.Declares name := by
  unfold unknown? Declares
  rw [List.find?_eq_none]
  simp [Dict.mem_keys, Dict.contains_eq_isSome]

/-- Arguments fit an action if it declares every name that is bound, every name that it declares has a
value, and every parameter that asks for a kind gets a value of that kind. -/
structure Fits (a : Action) (bound : Dict String Value) : Prop where
  known : ∀ name, (bound.get? name).isSome = true → a.Declares name
  supplied : ∀ name, a.Declares name →
    (bound.get? name).isSome = true ∨
      ∃ p, a.parameter? name = some p ∧ p.default.isSome = true
  kinds : ∀ p ∈ a.parameters, ∀ kind, p.kind = some kind →
    ∀ value, a.value? bound p.name = some value → value.kind = kind

theorem value?_isSome (name : String) :
    (a.value? bound name).isSome = true ↔ (bound.get? name).isSome = true ∨
      ∃ p, a.parameter? name = some p ∧ p.default.isSome = true := by
  rw [value?_eq]
  cases bound.get? name <;> cases a.parameter? name <;> simp

theorem objection?_eq_none {p : Parameter} {value : Option Value} :
    a.objection? p value = none ↔
      value.isSome = true ∧ ∀ kind, p.kind = some kind → ∀ v, value = some v → v.kind = kind := by
  cases value with
  | none => simp [objection?]
  | some v => cases hkind : p.kind <;> simp [objection?, hkind]

theorem firstError?_eq_none : a.firstError? bound = none ↔ a.Fits bound := by
  unfold firstError?
  rw [Option.or_eq_none_iff, Option.map_eq_none_iff, unknown?_eq_none, List.findSome?_eq_none_iff]
  simp only [objection?_eq_none, value?_isSome]
  constructor
  · rintro ⟨hknown, hparameters⟩
    refine ⟨hknown, ?_, fun p hp => (hparameters p hp).2⟩
    rintro _ ⟨p, hp, rfl⟩
    exact (hparameters p hp).1
  · intro h
    exact ⟨h.known, fun p hp => ⟨h.supplied p.name ⟨p, hp, rfl⟩, h.kinds p hp⟩⟩

theorem get?_complete (h : a.Fits bound) (name : String) :
    (a.complete bound).get? name = a.value? bound name := by
  refine get?_foldl_fill a.parameters bound (fun p hp => ?_) name
  exact value?_isSome p.name |>.mpr (h.supplied p.name ⟨p, hp, rfl⟩)

theorem declares_of_value? (h : a.Fits bound) {name : String}
    (hv : (a.value? bound name).isSome = true) : a.Declares name := by
  rcases (value?_isSome name).mp hv with hbound | ⟨p, hp, -⟩
  · exact h.known name hbound
  · exact ⟨p, List.mem_of_find?_eq_some hp, by simpa using List.find?_some hp⟩

/-- What was completed is complete. -/
theorem value?_complete (h : a.Fits bound) (name : String) :
    a.value? (a.complete bound) name = a.value? bound name := by
  rw [value?_eq, get?_complete h, value?_eq]
  cases bound.get? name <;> simp

theorem Fits.complete (h : a.Fits bound) : a.Fits (a.complete bound) where
  known name hname := by
    rw [get?_complete h] at hname
    exact declares_of_value? h hname
  supplied name hname := by
    rw [← value?_isSome, value?_complete h]
    exact (value?_isSome name).mpr (h.supplied name hname)
  kinds p hp kind hkind := by
    rw [value?_complete h]
    exact h.kinds p hp kind hkind

theorem complete_complete (h : a.Fits bound) : a.complete (a.complete bound) = a.complete bound := by
  refine Dict.ext_get? fun name => ?_
  rw [get?_complete h.complete, value?_complete h, get?_complete h]

theorem bind_ok_iff {d : Description} :
    a.bind bound = .ok d ↔ a.Fits bound ∧ d = ⟨a.returns, a.complete bound⟩ := by
  rw [bind_eq, ← firstError?_eq_none]
  cases a.firstError? bound with
  | some e => simp
  | none => simp [eq_comm]

theorem bind_error_iff {e : BindError} :
    a.bind bound = .error e ↔ a.firstError? bound = some e := by
  rw [bind_eq]
  cases a.firstError? bound <;> simp

/-- What goes wrong when an action is bound is that its source cannot be resolved. -/
theorem produce_of_bind_error {e : BindError} (he : a.bind bound = .error e) {catalog : Catalog}
    {name : String} (ha : catalog.actions.get? name = some a) {arguments : Dict String Argument}
    {root : TaskId} {p : Plan} {scopes scopes' : Scopes}
    (hb : Slots.bindArguments (p.argument? root) arguments.entries .empty scopes =
      (.ok bound, scopes')) :
    Slots.produce catalog root (.action name arguments) scopes p =
      (.error (.unresolvableSource (.binding e)), scopes', p) := by
  simp only [Slots.produce, ha, hb, he]

/-- Arguments are bound exactly if they fit the action. The description is then of what the action
makes, with a value for each declared name and for no other: what was bound to the name, or else the
default of the first parameter of that name. To bind the arguments of the description again gives the
same description. Whatever is wrong otherwise, the source cannot be resolved for it. -/
theorem binds_what_fits (a : Action) (bound : Dict String Value) :
    ((∃ d, a.bind bound = .ok d) ↔ a.Fits bound) ∧
    (∀ d, a.bind bound = .ok d →
      d.model = a.returns ∧
      (∀ name, (d.arguments.get? name).isSome = true ↔ a.Declares name) ∧
      (∀ name, a.Declares name → d.arguments.get? name =
        (bound.get? name).or ((a.parameter? name).bind Parameter.default)) ∧
      a.bind d.arguments = .ok d) ∧
    ∀ e, a.bind bound = .error e →
      ∀ (catalog : Catalog) (name : String) (arguments : Dict String Argument) (root : TaskId)
        (p : Plan) (scopes scopes' : Scopes), catalog.actions.get? name = some a →
        Slots.bindArguments (p.argument? root) arguments.entries .empty scopes =
          (.ok bound, scopes') →
        Slots.produce catalog root (.action name arguments) scopes p =
          (.error (.unresolvableSource (.binding e)), scopes', p) := by
  refine ⟨?_, fun d hd => ?_, ?_⟩
  · simp only [bind_ok_iff]
    exact ⟨fun ⟨_, h, _⟩ => h, fun h => ⟨_, h, rfl⟩⟩
  · obtain ⟨h, rfl⟩ := bind_ok_iff.mp hd
    refine ⟨rfl, fun name => ?_, fun name _ => get?_complete h name, ?_⟩
    · rw [get?_complete h]
      exact ⟨declares_of_value? h, fun hname => (value?_isSome name).mpr (h.supplied name hname)⟩
    · exact bind_ok_iff.mpr ⟨h.complete, by rw [complete_complete h]⟩
  · intro e he catalog name arguments root p scopes scopes' ha hb
    exact produce_of_bind_error he ha hb

/-- Of two parameters of one name the default of the first serves the second, too. -/
example : (⟨"move", "Move", "", [⟨"speed", none, some (.int 1)⟩, ⟨"speed", some .int, none⟩]⟩ :
    Action).bind .empty = .ok ⟨"Move", Dict.empty.insert "speed" (.int 1)⟩ := by
  rfl

end Action

end Conductor
