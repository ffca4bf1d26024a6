import Conductor.Json

/-!
Reading JSON text. The text must hold exactly one value. Of several members of one object with
the same name the last one counts. A string may hold unpaired surrogates only where the caller
says what stands for them.
-/

namespace Conductor.Json.Reader

/-- What is read off the front of a text, and the text that is left. -/
abbrev Parse (α : Type) := List Char → Option (α × List Char)

def isBlank (c : Char) : Bool := c == ' ' || c == '\n' || c == '\r' || c == '\t'

def skipBlank (s : List Char) : List Char := s.dropWhile isBlank

def hexDigit? (c : Char) : Option Nat :=
  if '0' ≤ c ∧ c ≤ '9' then some (c.toNat - '0'.toNat)
  else if 'a' ≤ c ∧ c ≤ 'f' then some (c.toNat - 'a'.toNat + 10)
  else if 'A' ≤ c ∧ c ≤ 'F' then some (c.toNat - 'A'.toNat + 10)
  else none

/-- The code unit written by four hexadecimal digits. -/
def codeUnit? (a b c d : Char) : Option Nat := do
  let a ← hexDigit? a
  let b ← hexDigit? b
  let c ← hexDigit? c
  let d ← hexDigit? d
  return ((a * 16 + b) * 16 + c) * 16 + d

/-- The character that a backslash and a letter stand for. -/
def escaped? : Char → Option Char
  | '"' => some '"'
  | '\\' => some '\\'
  | '/' => some '/'
  | 'b' => some '\x08'
  | 'f' => some '\x0c'
  | 'n' => some '\n'
  | 'r' => some '\r'
  | 't' => some '\t'
  | _ => none

def isLeading (unit : Nat) : Bool := 0xD800 ≤ unit && unit < 0xDC00

def isTrailing (unit : Nat) : Bool := 0xDC00 ≤ unit && unit < 0xE000

def after (c : Char) : Option (List Char × List Char) → Option (List Char × List Char)
  | some (cs, rest) => some (c :: cs, rest)
  | none => none

/-- The characters up to the closing quote. An unpaired surrogate reads as `lone`, if that is
given, and is refused otherwise. -/
def quoted (lone : Option Char) : Parse (List Char)
  | [] => none
  | '"' :: rest => some ([], rest)
  | '\\' :: 'u' :: a :: b :: c :: d :: rest =>
    match codeUnit? a b c d with
    | none => none
    | some unit =>
      if isLeading unit then
        match rest with
        | '\\' :: 'u' :: e :: f :: g :: h :: after' =>
          match codeUnit? e f g h with
          | none => none
          | some low =>
            if isTrailing low then
              after (Char.ofNat (0x10000 + (unit - 0xD800) * 0x400 + (low - 0xDC00)))
                (quoted lone after')
            else
              lone.bind fun l => after l (quoted lone ('\\' :: 'u' :: e :: f :: g :: h :: after'))
        | rest => lone.bind fun l => after l (quoted lone rest)
      else if isTrailing unit then lone.bind fun l => after l (quoted lone rest)
      else after (Char.ofNat unit) (quoted lone rest)
  | '\\' :: c :: rest => (escaped? c).bind fun e => after e (quoted lone rest)
  | c :: rest => if c.toNat < 0x20 then none else after c (quoted lone rest)

def text (lone : Option Char) : Parse String
  | '"' :: rest => (quoted lone rest).map fun (cs, rest) => (String.ofList cs, rest)
  | _ => none

def digits (s : List Char) : List Char × List Char := s.span Char.isDigit

/-- The whole part of a numeral: no leading zero in front of another digit. -/
def whole : Parse (List Char)
  | '0' :: rest => some (['0'], rest)
  | s =>
    match digits s with
    | ([], _) => none
    | found => some found

/-- The fraction of a numeral, possibly empty. -/
def fraction : Parse (List Char)
  | '.' :: rest =>
    match digits rest with
    | ([], _) => none
    | (ds, rest) => some ('.' :: ds, rest)
  | rest => some ([], rest)

/-- The exponent of a numeral, possibly empty. -/
def exponent : Parse (List Char)
  | c :: rest =>
    if c == 'e' || c == 'E' then
      let (sign, rest) := match rest with
        | '+' :: rest => (['+'], rest)
        | '-' :: rest => (['-'], rest)
        | rest => ([], rest)
      match digits rest with
      | ([], _) => none
      | (ds, rest) => some (c :: sign ++ ds, rest)
    else some ([], c :: rest)
  | [] => some ([], [])

def natOfDigits (ds : List Char) : Nat :=
  ds.foldl (fun n c => n * 10 + (c.toNat - '0'.toNat)) 0

/-- A numeral. Minus zero is not a whole number. -/
def numeral (s : List Char) : Option (Json × List Char) := do
  let (negative, s) := match s with
    | '-' :: rest => (true, rest)
    | s => (false, s)
  let (ds, s) ← whole s
  let (frac, s) ← fraction s
  let (exp, s) ← exponent s
  let sign := if negative then ['-'] else []
  if frac.isEmpty && exp.isEmpty && !(negative && natOfDigits ds == 0) then
    let n : Int := natOfDigits ds
    return (.int (if negative then -n else n), s)
  else
    return (.real (String.ofList (sign ++ ds ++ frac ++ exp)), s)

/-- The items of an array up to its closing bracket, each read by `item`. -/
def itemsWith (item : Parse Json) : Nat → Parse (List Json)
  | 0, _ => none
  | fuel + 1, s => do
    let (v, rest) ← item s
    match skipBlank rest with
    | ',' :: rest =>
      let (vs, rest) ← itemsWith item fuel rest
      return (v :: vs, rest)
    | ']' :: rest => return ([v], rest)
    | _ => none

/-- The members of an object up to its closing brace. Keys are read with `lone`, and the value
of a member by the reader that `value` gives for its name. -/
def membersWith (lone : Option Char) (value : String → Parse Json) :
    Nat → Parse (List (String × Json))
  | 0, _ => none
  | fuel + 1, s => do
    let (key, rest) ← text lone (skipBlank s)
    match skipBlank rest with
    | ':' :: rest =>
      let (v, rest) ← value key rest
      match skipBlank rest with
      | ',' :: rest =>
        let (vs, rest) ← membersWith lone value fuel rest
        return ((key, v) :: vs, rest)
      | '}' :: rest => return ([(key, v)], rest)
      | _ => none
    | _ => none

/-- One value. The fuel bounds the depth of nesting. -/
def value (lone : Option Char) : Nat → Parse Json
  | 0, _ => none
  | fuel + 1, s =>
    match skipBlank s with
    | '\x7b' :: rest =>
      match skipBlank rest with
      | '\x7d' :: rest => some (.obj [], rest)
      | rest => (membersWith lone (fun _ => value lone fuel) rest.length rest).map
          fun (members, rest) => (.obj (Dict.ofList members).entries, rest)
    | '[' :: rest =>
      match skipBlank rest with
      | ']' :: rest => some (.arr [], rest)
      | rest => (itemsWith (value lone fuel) rest.length rest).map
          fun (items, rest) => (.arr items, rest)
    | '"' :: rest => (text lone ('"' :: rest)).map fun (t, rest) => (.str t, rest)
    | 'n' :: 'u' :: 'l' :: 'l' :: rest => some (.null, rest)
    | 't' :: 'r' :: 'u' :: 'e' :: rest => some (.bool true, rest)
    | 'f' :: 'a' :: 'l' :: 's' :: 'e' :: rest => some (.bool false, rest)
    | s => numeral s

end Conductor.Json.Reader

namespace Conductor.Json

/-- The value written by a whole text. -/
def parse? (text : String) : Option Json :=
  let s := text.toList
  match Reader.value none (s.length + 1) s with
  | some (j, rest) => if (Reader.skipBlank rest).isEmpty then some j else none
  | none => none

end Conductor.Json
