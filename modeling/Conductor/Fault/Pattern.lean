import Conductor.Event

/-!
Patterns over faults: which faults a response is meant for.
-/

namespace Conductor

inductive FaultPattern where
  | any
  | category (name : String)
  | messageContains (text : String)
  | all (patterns : List FaultPattern)
  | anyOf (patterns : List FaultPattern)
  | not (pattern : FaultPattern)
deriving Inhabited

/-- Whether `part` stands somewhere in a text. -/
def occursIn (part : List Char) : List Char → Bool
  | [] => part.isEmpty
  | c :: rest => part.isPrefixOf (c :: rest) || occursIn part rest

namespace FaultPattern

mutual

def accepts (f : Fault) : FaultPattern → Bool
  | any => true
  | category name => f.category == name
  | messageContains text => occursIn text.toList f.message.toList
  | all patterns => acceptsAll f patterns
  | anyOf patterns => acceptsAny f patterns
  | not pattern => !accepts f pattern

def acceptsAll (f : Fault) : List FaultPattern → Bool
  | [] => true
  | p :: rest => accepts f p && acceptsAll f rest

def acceptsAny (f : Fault) : List FaultPattern → Bool
  | [] => false
  | p :: rest => accepts f p || acceptsAny f rest

end

mutual

def toJson : FaultPattern → Json
  | any => .str "any"
  | category name => .obj [("category", .str name)]
  | messageContains text => .obj [("message_contains", .str text)]
  | all patterns => .obj [("all", .arr (toJsonAll patterns))]
  | anyOf patterns => .obj [("any_of", .arr (toJsonAll patterns))]
  | not pattern => .obj [("not", toJson pattern)]

def toJsonAll : List FaultPattern → List Json
  | [] => []
  | p :: rest => toJson p :: toJsonAll rest

end

/-- A pattern of the form with the given name. `inner` is the reading of the content as a
pattern, `items` its reading as an array of patterns. -/
def ofContent? (name : String) (content : Json) (inner : Option FaultPattern)
    (items : Option (List FaultPattern)) : Option FaultPattern :=
  match name with
  | "any" => (Json.noContent? (some content)).map fun _ => any
  | "category" => content.str?.map category
  | "message_contains" => content.str?.map messageContains
  | "all" => items.map all
  | "any_of" => items.map anyOf
  | "not" => inner.map not
  | _ => none

mutual

def ofJson? : Json → Option FaultPattern
  | .str name => if name == "any" then some any else none
  | .obj [(name, content)] => ofContent? name content (ofJson? content) (items? content)
  | _ => none

/-- The patterns in an array of patterns. -/
def items? : Json → Option (List FaultPattern)
  | .arr items => ofJsonAll? items
  | _ => none

def ofJsonAll? : List Json → Option (List FaultPattern)
  | [] => some []
  | j :: rest =>
    match ofJson? j, ofJsonAll? rest with
    | some p, some ps => some (p :: ps)
    | _, _ => none

end

mutual

/-- Whether two patterns are the same tree. -/
def same : FaultPattern → FaultPattern → Bool
  | any, any => true
  | category a, category b => a == b
  | messageContains a, messageContains b => a == b
  | all ps, all qs => sameAll ps qs
  | anyOf ps, anyOf qs => sameAll ps qs
  | not p, not q => same p q
  | _, _ => false

def sameAll : List FaultPattern → List FaultPattern → Bool
  | [], [] => true
  | p :: ps, q :: qs => same p q && sameAll ps qs
  | _, _ => false

end

mutual

theorem same_refl : ∀ p : FaultPattern, same p p = true
  | any => by simp [same]
  | category _ => by simp [same]
  | messageContains _ => by simp [same]
  | all patterns => by simp [same, sameAll_refl patterns]
  | anyOf patterns => by simp [same, sameAll_refl patterns]
  | not pattern => by simp [same, same_refl pattern]

theorem sameAll_refl : ∀ ps : List FaultPattern, sameAll ps ps = true
  | [] => by simp [sameAll]
  | p :: rest => by simp [sameAll, same_refl p, sameAll_refl rest]

end

mutual

theorem eq_of_same : ∀ {a b : FaultPattern}, same a b = true → a = b
  | any, b, h => by cases b <;> simp_all [same]
  | category _, b, h => by cases b <;> simp_all [same]
  | messageContains _, b, h => by cases b <;> simp_all [same]
  | all ps, b, h => by
    cases b <;> simp only [same, Bool.false_eq_true] at h
    rw [eq_of_sameAll h]
  | anyOf ps, b, h => by
    cases b <;> simp only [same, Bool.false_eq_true] at h
    rw [eq_of_sameAll h]
  | not p, b, h => by
    cases b <;> simp only [same, Bool.false_eq_true] at h
    rw [eq_of_same h]

theorem eq_of_sameAll : ∀ {ps qs : List FaultPattern}, sameAll ps qs = true → ps = qs
  | [], qs, h => by cases qs <;> simp_all [sameAll]
  | p :: ps, qs, h => by
    cases qs <;> simp only [sameAll, Bool.false_eq_true, Bool.and_eq_true] at h
    rw [eq_of_same h.1, eq_of_sameAll h.2]

end

instance : DecidableEq FaultPattern := fun a b =>
  if h : same a b = true then isTrue (eq_of_same h)
  else isFalse fun e => h (e ▸ same_refl a)

end FaultPattern

end Conductor
