import Masthead.Backend.Toml.Insertion

/-! A library for TOML documents. Halves of pairs of units are kept in documents as characters for
private use. -/

namespace Masthead.Backend.Toml
open Masthead.Toml (Shape Content Entry)

/-- A document, and the ways on which frames stand that hold nothing yet. -/
structure Edited where
  body : Body
  frames : List (List Text) := []

def Clash.kind : Clash → Text
  | present _ => "present"
  | redefined => "redefined"
  | headerInBraces => "header in braces"
  | null => "null"
  | unindentable => "unindentable"

def foreign (e : Clash) : Foreign := ⟨e.kind, e.message⟩

/-! Halves of pairs. -/

def privateStart : Nat := 0x10f000

def standIn : Text.Point → Char
  | .char c => c
  | .half unit => Char.ofNat (privateStart + (unit - 0xd800))

def pointOf (c : Char) : Text.Point :=
  if privateStart ≤ c.toNat ∧ c.toNat < privateStart + 0x800 then
    .half (0xd800 + (c.toNat - privateStart))
  else .char c

def valueOf : Content → Value
  | .value v => v
  | .points s => .text (s.map standIn)

/-! The library. -/

namespace Edited

def parse (s : Text) : Except Masthead.Toml.Fault Edited :=
  match Document.parse s with
  | .ok body => .ok { body }
  | .error .malformed => .error .malformed
  | .error (.clash e) => .error (.foreign (foreign e))

def data (d : Edited) : Except Foreign Table := d.body.meaning.mapError foreign

def shape? (d : Edited) (path : List Text) : Except Foreign (Option Shape) :=
  if d.frames.any (path.isPrefixOf ·) then .ok (some .table)
  else (Site.look path d.body).mapError foreign

def faultOf : Obstacle → Foreign
  | .clash e => foreign e
  | .present => ⟨"present", []⟩
  | .notTable key => ⟨"no table", key⟩

def put (d : Edited) (way : List Text) (key : Text) : Entry → Except Foreign Edited
  | .frame =>
    let path := way ++ [key]
    match Site.add (.ok (.mk {} [])) path .lines [] d.body with
    | .ok _ => .ok { d with frames := path :: d.frames }
    | .error e => .error (faultOf e)
  | .table values =>
    let new := newSection (values.map fun e => (e.1, valueOf e.2))
    match Site.add new (way ++ [key]) .lines [] d.body with
    | .ok body => .ok { d with body }
    | .error e => .error (faultOf e)
  | .plain v =>
    match newItem (valueOf v) with
    | .ok item => .ok { d with body := d.body.addNew (key, item) }
    | .error e => .error (foreign e)

def text (d : Edited) : Points := (Document.text d.body).map pointOf

end Edited

end Masthead.Backend.Toml

namespace Masthead.Backend

scoped instance : Masthead.Toml.Library where
  Document := Backend.Toml.Edited
  parse := Backend.Toml.Edited.parse
  data := Backend.Toml.Edited.data
  shape? := Backend.Toml.Edited.shape?
  put := Backend.Toml.Edited.put
  text d := .ok d.text

end Masthead.Backend
