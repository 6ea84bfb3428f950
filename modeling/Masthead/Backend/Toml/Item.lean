import Masthead.Backend.Toml.Key
import Masthead.Value

/-! What a TOML document is made of. Every part keeps the blanks and the comment around it, so that
the parts together are the text that they were read from. -/

namespace Masthead.Backend.Toml

/-- What stands around something: the blanks before it, the blanks and the comment behind it, and
the end of its line. -/
structure Margin where
  indent : Text := []
  gap : Text := []
  comment : Text := []
  ending : Text := ['\n']
deriving DecidableEq, Repr

structure Head where
  margin : Margin := {}
  title : Option Text := none
  isRow : Bool := false
  /-- Whether the table has no header of its own and only leads to others. If this is open, it
  depends on what the table holds. -/
  isFrame : Option Bool := none
deriving DecidableEq, Repr

mutual

inductive Item where
  | blank (text : Text)
  | comment (margin : Margin)
  | value (margin : Margin) (raw : Text) (v : Value)
  | inline (margin : Margin) (raw : Text) (body : List (Option Key × Item))
  | table (t : Section)
  | rows (indent : Text) (tables : List Section)

inductive Section where
  | mk (head : Head) (body : List (Option Key × Item))

end

abbrev Body := List (Option Key × Item)

namespace Section

def head : Section → Head
  | mk head _ => head

def body : Section → Body
  | mk _ body => body

def withBody (t : Section) (body : Body) : Section := mk t.head body

end Section

namespace Item

def isBlank : Item → Bool
  | blank _ => true
  | _ => false

def isTabular : Item → Bool
  | table _ => true
  | rows .. => true
  | _ => false

def isTable : Item → Bool
  | table _ => true
  | _ => false

def isRows : Item → Bool
  | rows .. => true
  | _ => false

def isRow : Item → Bool
  | table t => t.head.isRow
  | _ => false

def mapMargin (f : Margin → Margin) : Item → Item
  | comment m => comment (f m)
  | value m raw v => value (f m) raw v
  | inline m raw body => inline (f m) raw body
  | table (.mk h body) => table (.mk { h with margin := f h.margin } body)
  | item => item

def mapIndent (f : Text → Text) : Item → Item
  | rows indent tables => rows (f indent) tables
  | item => item.mapMargin fun m => { m with indent := f m.indent }

def margin? : Item → Option Margin
  | blank _ => none
  | comment m => some m
  | value m _ _ => some m
  | inline m _ _ => some m
  | table t => some t.head.margin
  | rows indent _ => some { indent, ending := [] }

def close : Item → Item :=
  mapMargin fun m => if '\n' ∈ m.ending then m else { m with ending := m.ending ++ ['\n'] }

end Item

namespace Body

def has (b : Body) (name : Text) : Bool := b.any fun e => e.1.any (·.name = name)

def count (b : Body) (name : Text) : Nat := b.countP fun e => e.1.any (·.name = name)

def names (b : Body) : List Text := ((b.filterMap (·.1)).map (·.name)).eraseDups

def last? (b : Body) (name : Text) : Option (Nat × Key × Item) :=
  b.zipIdx.reverse.findSome? fun
    | ((some k, item), i) => if k.name = name then some (i, k, item) else none
    | _ => none

def put (b : Body) (i : Nat) (item : Item) : Body := b.modify i fun e => (e.1, item)

def endsWithTable (b : Body) (name : Text) : Bool :=
  match b.reverse.find? (·.2.isTable) with
  | some (some k, _) => k.name = name
  | _ => false

mutual

def depth : List (Option Key × Item) → Nat
  | [] => 0
  | (_, item) :: b => max (itemDepth item) (depth b)

def itemDepth : Item → Nat
  | .inline _ _ b => depth b + 1
  | .table (.mk _ b) => depth b + 1
  | .rows _ ts => rowsDepth ts
  | _ => 0

def rowsDepth : List Section → Nat
  | [] => 0
  | .mk _ b :: ts => max (depth b + 1) (rowsDepth ts)

end

end Body

/-- Whether a table has no header of its own. If the table leaves it open, this is so when all that
it holds is tables, each in one place and under a key of its own. -/
def Section.isFrame (t : Section) : Bool :=
  t.head.isFrame.getD <|
    !t.body.names.isEmpty && t.body.all fun
      | (some k, item) => item.isTabular && !k.isDotted && t.body.count k.name = 1
      | _ => true

end Masthead.Backend.Toml
