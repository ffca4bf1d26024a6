import Conductor.Dict

/-!
The tree of a JSON text, and the readings shared by everything that is written as JSON: records,
choices between named forms, and whole numbers of a given range.

A number is whole only when it is written without fraction and exponent; any other numeral is
kept as it was written and stands for no whole number.
-/

namespace Conductor

inductive Json where
  | null
  | bool (value : Bool)
  | int (value : Int)
  | real (numeral : String)
  | str (value : String)
  | arr (items : List Json)
  | obj (members : List (String × Json))
deriving Inhabited

namespace Json

def isNull : Json → Bool
  | null => true
  | _ => false

/-- The value of the first member with the given name. -/
def lookup (name : String) (members : List (String × Json)) : Option Json :=
  (members.find? fun m => m.1 == name).map Prod.snd

/-- The value of a member of an object. -/
def member? (name : String) : Json → Option Json
  | obj members => lookup name members
  | _ => none

def bool? : Json → Option Bool
  | bool b => some b
  | _ => none

def str? : Json → Option String
  | str s => some s
  | _ => none

def arr? : Json → Option (List Json)
  | arr items => some items
  | _ => none

def obj? : Json → Option (List (String × Json))
  | obj members => some members
  | _ => none

/-- A whole number of at least `low` and less than `high`. -/
def intWithin? (low high : Int) : Json → Option Int
  | int n => if low ≤ n ∧ n < high then some n else none
  | _ => none

/-- A size or position: a whole number that fits in sixty-four bits. -/
def size? (j : Json) : Option Nat := (j.intWithin? 0 0x10000000000000000).map Int.toNat

/-- A signed whole number of sixty-four bits. -/
def int64? (j : Json) : Option Int64 :=
  (j.intWithin? (-0x8000000000000000) 0x8000000000000000).map Int64.ofInt

/-- A signed whole number of thirty-two bits. -/
def int32? (j : Json) : Option Int := j.intWithin? (-0x80000000) 0x80000000

/-- The members of an object in name order, each read by `read`. -/
def dict? {α : Type} (read : Json → Option α) (j : Json) : Option (Dict String α) := do
  let members ← j.obj?
  let values ← members.mapM fun m => (read m.2).map (m.1, ·)
  return Dict.ofList values

/-- Items by position, with nothing where the items have run out. -/
def align : List String → List Json → Option (List (Option Json))
  | [], [] => some []
  | [], _ :: _ => none
  | _ :: names, [] => (align names []).map (none :: ·)
  | _ :: names, item :: items => (align names items).map (some item :: ·)

/-- The fields of a record in the order of their names. A record is written as an object, where
other members are ignored, or as an array of its fields, where trailing ones may be missing. -/
def record? (names : List String) : Json → Option (List (Option Json))
  | obj members => some (names.map fun name => lookup name members)
  | arr items => align names items
  | _ => none

/-- A field that may be missing or null. -/
def optional {α : Type} (read : Json → Option α) : Option Json → Option (Option α)
  | none => some none
  | some null => some none
  | some j => (read j).map some

/-- A field that takes a fixed value when it is missing. -/
def withDefault {α : Type} (read : Json → Option α) (value : α) : Option Json → Option α
  | none => some value
  | some j => read j

/-- A choice between named forms: the bare name, or an object with the name as its only member
and the content of the form as that member's value. -/
def choice? : Json → Option (String × Option Json)
  | str name => some (name, none)
  | obj [(name, content)] => some (name, some content)
  | _ => none

/-- The name of a form without content. -/
def bareName? (j : Json) : Option String :=
  match j.choice? with
  | some (name, none) => some name
  | some (name, some null) => some name
  | _ => none

/-- How the form of a record may be named. What stands in a record before the form of that record
is known is set aside, and the records in it are named loosely. -/
inductive Naming where
  | strict
  | loose
deriving DecidableEq

/-- The name of the form of a record that is an object. Loosely an empty object, too, stands for
no content. -/
def Naming.ofMember? : Naming → Json → Option String
  | loose, obj [(name, obj [])] => some name
  | _, j => j.bareName?

/-- The name of the form of a record that is an array. Loosely the position of the form among all
forms stands for its name. -/
def Naming.ofItem? (forms : List String) : Naming → Json → Option String
  | _, str name => some name
  | loose, j => j.size?.bind fun position => forms[position]?
  | strict, _ => none

/-- One of several forms, written as a record of its name and its content under the given two
names. -/
def tagged? (naming : Naming) (forms : List String) (tag content : String) :
    Json → Option (String × Option Json)
  | obj members =>
    ((lookup tag members).bind naming.ofMember?).map fun name => (name, lookup content members)
  | arr [name, body] => (naming.ofItem? forms name).map fun name => (name, some body)
  | _ => none

/-- The content of a form that has none: missing or null. -/
def noContent? : Option Json → Option Unit
  | none => some ()
  | some null => some ()
  | some _ => none

/-- The name of the form of a record and the rest of it, where the name stands among the fields of
the form: as the member with the given name, or as the first item of an array. The rest is set
aside until the name is known. -/
def form? (tag : String) : Json → Option (String × Json)
  | obj members =>
    match lookup tag members with
    | some (str name) => some (name, obj (members.filter fun m => m.1 ≠ tag))
    | _ => none
  | arr (str name :: items) => some (name, arr items)
  | _ => none

/-! Writing. -/

def nat (n : Nat) : Json := int n

def list {α : Type} (write : α → Json) (items : List α) : Json := arr (items.map write)

def orNull {α : Type} (write : α → Json) : Option α → Json
  | some a => write a
  | none => null

end Json

/-- A finite choice whose members are written by name. -/
class Spelled (α : Type) where
  all : List α
  name : α → String

namespace Spelled

variable {α : Type} [Spelled α]

def ofName? (s : String) : Option α := all.find? fun a => name a == s

def names (α : Type) [Spelled α] : List String := (all : List α).map name

def toJson (a : α) : Json := .str (name a)

def ofJson? (j : Json) : Option α := j.bareName?.bind ofName?

end Spelled

end Conductor
