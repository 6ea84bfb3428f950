import Masthead.Backend.Toml.Item

/-! Building tables while a document is read. A table may stand in several places of a document;
what it holds is what its parts hold one after the other, and that has to fit together. Tables
without a header of their own are laid together where they meet. -/

namespace Masthead.Backend.Toml

inductive Clash where
  | present (name : Text)
  | redefined
  | headerInBraces
  | null
  | unindentable
deriving DecidableEq, Repr

def Clash.message : Clash → Text
  | present name => "Key \"" ++ name ++ "\" already exists."
  | redefined => "Redefinition of an existing table"
  | headerInBraces => "Inline tables cannot contain a table"
  | null => "null cannot be written"
  | unindentable => "a table in several places takes no indentation"

namespace Body

def spread (b : Body) (name : Text) : Body :=
  b.flatMap fun
    | (some k, .table t) => if k.name = name then t.body else []
    | _ => []

def gather (name : Text) : (b entries : Body) → Body
  | [], _ => []
  | (some k, .table t) :: b, entries =>
    if k.name = name then
      (some k, .table (t.withBody (entries.take t.body.length))) ::
        gather name b (entries.drop t.body.length)
    else (some k, .table t) :: gather name b entries
  | e :: b, entries => e :: gather name b entries

def spacesOf (indent : Text) : Text := (indent.dropWhile (· ≠ ' ')).takeWhile (· = ' ')

def indented (spaces indent : Text) : Text :=
  indent.takeWhile (· ≠ ' ') ++ spaces ++ indent.dropWhile (· ≠ ' ')

def indentRows (indent : Text) (ts : List Section) : List Section :=
  ts.map fun t =>
    .mk { t.head with margin.indent := indented (spacesOf indent) t.head.margin.indent } t.body

def taker? : Item → Option Section
  | .table t => some t
  | .rows _ ts => ts.getLast?
  | _ => none

/-- What a table is left with when another one takes it in: entries that are new there get its
indentation. -/
def takenIn (taker : Section) (item : Item) : Item :=
  match item with
  | .table t =>
    .table <| t.withBody <| t.body.map fun e =>
      if e.1.any fun k => taker.body.has k.name then e
      else (e.1, e.2.mapIndent (indented (spacesOf taker.head.margin.indent)))
  | item => item

structure Joint where
  entries : Body
  body : Body := []
  /-- The number of each entry of the body among those it was made of, unless it is a new one. -/
  origins : List (Option Nat) := []

namespace Joint

def advance (j : Joint) (origin : Nat) (i : Nat) (body : Body) : Joint :=
  if j.body.length < body.length then { j with body, origins := j.origins ++ [some origin] }
  else
    let before := (j.body[i]?).map (·.2)
    { entries := match before.bind taker?, j.entries[origin]? with
        | some t, some (_, item) => if item.isRow then j.entries else j.entries.put origin
            (takenIn t item)
        | _, _ => j.entries
      body
      origins := if before.any (·.isRows) then j.origins else j.origins.set i none }

def settled (j : Joint) (body : Body) : Body :=
  (j.origins.zip body).foldl (fun entries (origin, e) =>
    match origin with
    | some i => entries.put i e.2
    | none => entries) j.entries

end Joint

def checkKeys (seen : Body) : Body → Except Clash Unit
  | [] => .ok ()
  | (some k, item) :: b =>
    match seen.last? k.name with
    | some (_, _, .table _) => checkKeys (seen ++ [(some k, item)]) b
    | some _ => .error (.present k.name)
    | none => checkKeys (seen ++ [(some k, item)]) b
  | e :: b => checkKeys (seen ++ [e]) b

mutual

/-- Adds an entry. A key that is there already takes the new entry in where both are tables without
headers or share one; it may occur once more where one of the tables has a header and the other has
none. -/
def addFrom : Nat → (checks : Bool) → Body → Key → Item → Except Clash Body
  | 0, _, b, key, item => .ok (b ++ [(some key, item)])
  | fuel + 1, checks, b, key, item =>
    let more := b ++ [(some key, item)]
    match b.last? key.name with
    | none => .ok more
    | some (i, k, current) =>
      match item, current with
      | .table t, .table c =>
        if t.head.isRow then .ok (b.put i (.rows [] [c, t]))
        else if c.isFrame then
          if t.isFrame then
            if key.isDotted || k.isDotted || !b.endsWithTable key.name then
              if checks then settle fuel more key.name else .ok more
            else (t.body.foldlM (absorb fuel) c).map fun c => b.put i (.table c)
          else if k.isDotted then .error .redefined
          else .ok more
        else if !t.isFrame then .error (.present key.name)
        else if key.isDotted then .error .redefined
        else .ok more
      | .table t, .rows indent tables =>
        if t.head.isRow then .ok (b.put i (.rows indent (tables ++ indentRows indent [t])))
        else
          match t.isFrame, tables.getLast? with
          | true, some last =>
            (t.body.foldlM (absorb fuel) last).map fun last =>
              b.put i (.rows indent (tables.dropLast ++ [last]))
          | _, _ => .error (.present key.name)
      | .rows _ new, .rows indent tables =>
        .ok (b.put i (.rows indent (tables ++ indentRows indent new)))
      | _, _ => .error (.present key.name)

def absorb : Nat → Section → Option Key × Item → Except Clash Section
  | 0, t, e => .ok (t.withBody (t.body ++ [e]))
  | _ + 1, t, (none, item) =>
    let spaces := spacesOf t.head.margin.indent
    let item := if spaces.isEmpty then item else item.mapIndent (indented spaces)
    .ok (t.withBody (t.body ++ [(none, item)]))
  | fuel + 1, t, (some key, item) => do
    let b ← addFrom fuel true t.body key item
    let b ← reach fuel b key.name
    let spaces := spacesOf t.head.margin.indent
    if spaces.isEmpty then .ok (t.withBody b)
    else if 1 < b.count key.name then .error .unindentable
    else .ok <| t.withBody <|
      match b.last? key.name with
      | some (i, _, item) => b.put i (item.mapIndent (indented spaces))
      | none => b

/-- Checks that the tables under a key fit together. Rows of tables that meet grow in the
process. -/
def settle : Nat → Body → Text → Except Clash Body
  | 0, b, _ => .ok b
  | fuel + 1, b, name =>
    if b.count name < 2 then .ok b
    else do
      let entries := b.spread name
      let j ← entries.zipIdx.foldlM (fun (j : Joint) (e, origin) =>
        match e with
        | (none, item) => .ok (j.advance origin 0 (j.body ++ [(none, item)]))
        | (some key, item) =>
          (addFrom fuel false j.body key item).map fun b =>
            j.advance origin (((j.body.last? key.name).map (·.1)).getD 0) b) { entries }
      let body ← j.body.names.foldlM (settle fuel) j.body
      .ok (b.gather name (j.settled body))

def reach : Nat → Body → Text → Except Clash Body
  | 0, b, _ => .ok b
  | fuel + 1, b, name =>
    if b.count name < 2 then .ok b
    else do
      let entries := b.spread name
      checkKeys [] entries
      let entries ← entries.names.foldlM (settle fuel) entries
      .ok (b.gather name entries)

end

def steps (b : Body) : Nat := 8 * depth b + 8

def add (checks : Bool) (b : Body) (key : Key) (item : Item) : Except Clash Body :=
  let e : Option Key × Item := (some key, item)
  if b.has key.name then addFrom (steps (e :: b)) checks b key item else .ok (b ++ [e])

def addPlain (b : Body) (item : Item) : Body :=
  match item, b.getLast? with
  | .blank more, some (none, .blank text) => b.dropLast ++ [(none, .blank (text ++ more))]
  | item, _ => b ++ [(none, item)]

def visit (b : Body) (name : Text) : Except Clash Body :=
  if b.count name < 2 then .ok b else reach (steps b) b name

def settled (b : Body) : Except Clash Body := b.names.foldlM (settle (steps b)) b

/-- The tables that the parts of a dotted key open one in another, with the item in the
innermost. -/
def branch : List Key → Item → Option (Key × Item)
  | [], _ => none
  | [k], item => some (k, item)
  | k :: ks, item =>
    (branch ks item).map fun (key, item) =>
      ({ k with isDotted := true }, .table (.mk { isFrame := some true } [(some key, item)]))

def addPath (checks : Bool) (b : Body) (ks : List Key) (item : Item) : Except Clash Body :=
  match branch ks item with
  | some (k, item) => add (checks || 1 < ks.length) b k item
  | none => .ok b

mutual

def itemValue : Nat → Item → Except Clash Value
  | 0, _ => .ok .null
  | fuel + 1, item =>
    match item with
    | .value _ _ v => .ok v
    | .inline _ _ b => (table fuel b).map .table
    | .table t => (table fuel t.body).map .table
    | .rows _ tables => (tables.mapM fun t => (table fuel t.body).map .table).map .list
    | .blank _ => .ok .null
    | .comment _ => .ok .null

def table : Nat → Body → Except Clash Table
  | 0, _ => .ok []
  | fuel + 1, b =>
    b.names.mapM fun name => do
      if b.count name < 2 then
        match b.last? name with
        | some (_, _, item) => (itemValue fuel item).map fun v => (name, v)
        | none => .ok (name, .null)
      else
        let b ← visit b name
        (table fuel (b.spread name)).map fun t => (name, .table t)

end

def meaning (b : Body) : Except Clash Table := table (steps b) b

end Body

def Item.meaning (item : Item) : Except Clash Value :=
  Body.itemValue (8 * Body.itemDepth item + 8) item

end Masthead.Backend.Toml
