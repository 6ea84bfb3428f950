import Masthead.Limits
import Masthead.Text.Points
import Masthead.Value

/-! Reading JSON documents. Beyond the standard, the names of infinity and of no number are read,
and halves of UTF-16 pairs in texts; of two members with one name the later value counts. -/

namespace Masthead.Json

/-- A value of a JSON document. The members of an object have names of their own. -/
inductive Node where
  | null
  | bool (b : Bool)
  | integer (n : Int)
  | float (x : Binary64)
  | text (s : Points)
  | list (items : List Node)
  | object (members : List (Points × Node))
deriving Repr

abbrev Object := List (Points × Node)

namespace Object

def get? (o : Object) (name : Text) : Option Node := (o.find? (·.1 = Points.ofText name)).map (·.2)

def ofMembers (members : List (Points × Node)) : Object :=
  (members.map (·.1)).eraseDups.filterMap fun name =>
    (members.reverse.find? (·.1 = name)).map fun m => (name, m.2)

end Object

namespace Node

mutual

/-- The value that a configuration holds, unless half of a pair is in a text of it. -/
def value? : Node → Option Value
  | .null => some .null
  | .bool b => some (.bool b)
  | .integer n => some (.integer n)
  | .float x => some (.float x)
  | .text s => s.text?.map .text
  | .list items => (values? items).map .list
  | .object members => (entries? members).map .table

def values? : List Node → Option (List Value)
  | [] => some []
  | v :: items => do
    let v ← v.value?
    let items ← values? items
    return v :: items

def entries? : List (Points × Node) → Option Table
  | [] => some []
  | (name, v) :: members => do
    let name ← name.text?
    let v ← v.value?
    let members ← entries? members
    return (name, v) :: members

end

end Node

inductive Nesting where
  | object
  | array
deriving DecidableEq, Repr

def Nesting.message (n : Nesting) : Text :=
  let name : Text := match n with
    | .object => "object"
    | .array => "array"
  "maximum recursion depth exceeded while decoding a JSON " ++ name ++ " from a unicode string"

inductive Fault where
  | malformed
  | number (e : Text.NumeralFault)
  | tooDeep (n : Nesting)
deriving DecidableEq, Repr

def needed {α : Type} : Option α → Except Fault α
  | some a => .ok a
  | none => .error .malformed

def isSpace (c : Char) : Bool := c = ' ' || c = '\t' || c = '\n' || c = '\r'

def skip (s : Text) : Text := s.dropWhile isSpace

def isDigit (c : Char) : Bool := '0' ≤ c && c ≤ '9'

def hexValue? (c : Char) : Option Nat :=
  if isDigit c then some (c.toNat - 48)
  else if 'a' ≤ c ∧ c ≤ 'f' then some (c.toNat - 87)
  else if 'A' ≤ c ∧ c ≤ 'F' then some (c.toNat - 55)
  else none

def hexNumber? (digits : Text) : Option Nat :=
  digits.foldlM (fun n c => (hexValue? c).map (16 * n + ·)) 0

def simpleEscape? : Char → Option Char
  | '"' => some '"'
  | '\\' => some '\\'
  | '/' => some '/'
  | 'b' => some '\x08'
  | 'f' => some '\x0c'
  | 'n' => some '\n'
  | 'r' => some '\r'
  | 't' => some '\t'
  | _ => none

def pointOf (unit : Nat) : Text.Point :=
  if 0xd800 ≤ unit ∧ unit ≤ 0xdfff then .half unit else .char (Char.ofNat unit)

def pairChar? (high : Nat) : Text → Option Char
  | '\\' :: 'u' :: a :: b :: c :: d :: _ =>
    match hexNumber? [a, b, c, d] with
    | some low =>
      if 0xd800 ≤ high ∧ high ≤ 0xdbff ∧ 0xdc00 ≤ low ∧ low ≤ 0xdfff then
        some (Char.ofNat (0x10000 + 1024 * (high - 0xd800) + (low - 0xdc00)))
      else none
    | none => none
  | _ => none

def textTail? : Text → Option (Points × Text)
  | [] => none
  | '"' :: rest => some ([], rest)
  | '\\' :: 'u' :: a :: b :: c :: d :: rest =>
    match hexNumber? [a, b, c, d] with
    | none => none
    | some unit =>
      match pairChar? unit rest, rest with
      | some x, _ :: _ :: _ :: _ :: _ :: _ :: rest =>
        (textTail? rest).map fun (s, rest) => (.char x :: s, rest)
      | _, rest => (textTail? rest).map fun (s, rest) => (pointOf unit :: s, rest)
  | '\\' :: c :: rest =>
    match simpleEscape? c with
    | some c => (textTail? rest).map fun (s, rest) => (.char c :: s, rest)
    | none => none
  | c :: rest =>
    if c = '\\' ∨ c.toNat < 0x20 then none
    else (textTail? rest).map fun (s, rest) => (.char c :: s, rest)

def wholePart? : Text → Option (Text × Text)
  | '0' :: rest => some (['0'], rest)
  | c :: rest =>
    if isDigit c then some (c :: rest.takeWhile isDigit, rest.dropWhile isDigit) else none
  | [] => none

def placesPart : Text → Text × Text
  | '.' :: c :: rest =>
    if isDigit c then ('.' :: c :: rest.takeWhile isDigit, rest.dropWhile isDigit)
    else ([], '.' :: c :: rest)
  | s => ([], s)

def exponentPart (s : Text) : Text × Text :=
  match s with
  | e :: rest =>
    if e = 'e' ∨ e = 'E' then
      let (sign, digits) := match rest with
        | '-' :: rest => (['-'], rest)
        | '+' :: rest => (['+'], rest)
        | rest => ([], rest)
      if (digits.takeWhile isDigit).isEmpty then ([], s)
      else (e :: sign ++ digits.takeWhile isDigit, digits.dropWhile isDigit)
    else ([], s)
  | [] => ([], [])

def integer (isNegative : Bool) (digits : Text) : Except Fault Node :=
  match Text.numeral digits with
  | .error e => .error (.number e)
  | .ok n => (needed n).map fun n => .integer (if isNegative then -n else n)

def number (s : Text) : Except Fault (Node × Text) := do
  let (isNegative, s) := match s with
    | '-' :: rest => (true, rest)
    | s => (false, s)
  let (whole, rest) ← needed (wholePart? s)
  let (places, rest) := placesPart rest
  let (exponent, rest) := exponentPart rest
  if places.isEmpty && exponent.isEmpty then
    let v ← integer isNegative whole
    return (v, rest)
  else
    let sign : Text := if isNegative then ['-'] else []
    let x ← needed (Binary64.parse? (sign ++ whole ++ places ++ exponent))
    return (.float x, rest)

def names : List (Text × Node) :=
  [("null".toList, .null), ("true".toList, .bool true), ("false".toList, .bool false),
    ("NaN".toList, .float .nan), ("Infinity".toList, .float (.infinite false)),
    ("-Infinity".toList, .float (.infinite true))]

def name? (s : Text) : Option (Node × Text) :=
  names.findSome? fun (name, v) => (Text.drop? name s).map fun rest => (v, rest)

mutual

/-- A value at the front of the text, and what follows it; it may hold values `depth` deep, and
`fuel` bounds the number of members besides. -/
def value (depth : Nat) : Nat → Text → Except Fault (Node × Text)
  | 0, _ => .error .malformed
  | fuel + 1, s =>
    match s with
    | '"' :: rest => (needed (textTail? rest)).map fun (s, rest) => (.text s, rest)
    | '{' :: rest =>
      if depth = 0 then .error (.tooDeep .object)
      else
        match skip rest with
        | '}' :: rest => .ok (.object [], rest)
        | rest =>
          (members (depth - 1) fuel rest).map fun (ms, rest) =>
            (.object (Object.ofMembers ms), rest)
    | '[' :: rest =>
      if depth = 0 then .error (.tooDeep .array)
      else
        match skip rest with
        | ']' :: rest => .ok (.list [], rest)
        | rest => (items (depth - 1) fuel rest).map fun (vs, rest) => (.list vs, rest)
    | s =>
      match name? s with
      | some r => .ok r
      | none => number s

def members (depth : Nat) : Nat → Text → Except Fault (List (Points × Node) × Text)
  | 0, _ => .error .malformed
  | fuel + 1, s =>
    match s with
    | '"' :: rest => do
      let (key, rest) ← needed (textTail? rest)
      match skip rest with
      | ':' :: rest =>
        let (v, rest) ← value depth fuel (skip rest)
        match skip rest with
        | '}' :: rest => return ([(key, v)], rest)
        | ',' :: rest => (members depth fuel (skip rest)).map fun (ms, rest) =>
          ((key, v) :: ms, rest)
        | _ => .error .malformed
      | _ => .error .malformed
    | _ => .error .malformed

def items (depth : Nat) : Nat → Text → Except Fault (List Node × Text)
  | 0, _ => .error .malformed
  | fuel + 1, s => do
    let (v, rest) ← value depth fuel s
    match skip rest with
    | ']' :: rest => return ([v], rest)
    | ',' :: rest => (items depth fuel (skip rest)).map fun (vs, rest) => (v :: vs, rest)
    | _ => .error .malformed

end

def parse [Limits] (s : Text) : Except Fault Node := do
  let (v, rest) ← value Limits.depth (s.length + 1) (skip s)
  if (skip rest).isEmpty then return v else .error .malformed

end Masthead.Json
