import Masthead.Backend.Toml.Printer
import Masthead.Toml

/-! Adding a table to a TOML document. All that the document holds stays as it is written; the new
table goes to the end of the first part of the table around it. An empty line goes before a table
that follows anything but an empty line. -/

namespace Masthead.Backend.Toml

/-! New entries. -/

namespace Body

mutual

def endsBlank : List (Option Key × Item) → Bool
  | [] => false
  | [(_, item)] => itemEndsBlank item
  | _ :: b => endsBlank b

def itemEndsBlank : Item → Bool
  | .blank _ => true
  | .table (.mk _ b) => endsBlank b
  | .rows _ ts => rowsEndBlank ts
  | _ => false

def rowsEndBlank : List Section → Bool
  | [] => false
  | [.mk _ b] => endsBlank b
  | _ :: ts => rowsEndBlank ts

end

def newMargin (b : Body) : Margin where
  indent := if b.isEmpty || endsBlank b then [] else ['\n']

def addLine (b : Body) (k : Key) (item : Item) : Body :=
  let before := b.takeWhile fun e => !(e.2.isTabular && !e.1.any (·.isDotted))
  let blanks := (before.reverse.takeWhile (·.2.isBlank)).reverse
  let lines := before.take (before.length - blanks.length)
  closeLast lines ++ (some k, item) :: openFirst (blanks ++ b.drop before.length)
where
  closeLast (b : Body) : Body :=
    match b.getLast? with
    | some (k, item) => b.dropLast ++ [(k, item.close)]
    | none => []
  openFirst : Body → Body
    | (k, item) :: b =>
      (k, item.mapIndent fun indent => if '\n' ∈ indent then indent else '\n' :: indent) :: b
    | [] => []

/-- Tables behind one with the given body that share its header. An empty line goes before each of
them that follows a table with something in it. -/
def spaced (before : Body) : List Section → List Section
  | [] => []
  | .mk h b :: ts =>
    .mk (if before.isEmpty then h else { h with margin.indent := ['\n'] }) b :: spaced b ts

def addRows (b : Body) (k : Key) : List Section → Body
  | [] => b ++ [(some k, .rows [] [])]
  | .mk h first :: ts =>
    b ++ [(some k, .rows [] (.mk { h with margin := b.newMargin } first :: spaced first ts))]

def addNew (b : Body) (e : Text × Item) : Body :=
  let k := Key.ofName e.1
  match e.2 with
  | .table (.mk h inner) => b ++ [(some k, .table (.mk { h with margin := b.newMargin } inner))]
  | .rows _ ts => b.addRows k ts
  | item => b.addLine k item

end Body

/-! Tables in braces with something new in them. -/

namespace Braces

def indent (item : Item) : Text := (item.margin?.map (·.indent)).getD []

def behind (item : Item) : Text :=
  match item.margin? with
  | some m => m.comment ++ m.ending.filter (· ≠ '\n')
  | none => []

def flat (way : Text) : List (Option Key × Item) → List Text
  | [] => []
  | (none, _) :: b => flat way b
  | (some k, .table (.mk _ inner)) :: b => flat (way ++ k.raw ++ '.' :: k.sign) inner ++ flat way b
  | (some k, item) :: b => (way ++ k.raw ++ k.sign ++ item.text ++ behind item) :: flat way b

def text (s : Text) : Body → Text
  | [] => s
  | [(none, item)] => (s.reverse.dropWhile (· = ',')).reverse ++ item.text
  | (none, item) :: b => text (s ++ item.text) b
  | (some k, item) :: b =>
    let comma : Text := if b.any (·.1.isSome) then [','] else []
    text (s ++ indent item ++ Text.join ", ".toList (flat [] [(some k, item)]) ++ comma) b

end Braces

def Item.braces (m : Margin) (b : Body) : Item := .inline m (Braces.text ['\x7b'] b ++ ['\x7d']) b

/-! New values. -/

def tablesLast {α : Type} (isTable : α → Bool) (es : List α) : List α :=
  es.filter (!isTable ·) ++ es.filter isTable

def isTableValue : Value → Bool
  | .table _ => true
  | _ => false

def braced (sep : Text) (pairs : List (Bool × Text)) : Text :=
  '\x7b' :: Text.join sep ((tablesLast (·.1) pairs).map (·.2)) ++ ['\x7d']

mutual

def written : Value → Except Clash Text
  | .null => .error .null
  | .bool b => .ok (if b then "true" else "false")
  | .integer n => .ok (Text.ofInt n)
  | .float x => .ok x.text
  | .text s => .ok (doubleQuoted s)
  | .date d => .ok d.iso
  | .time t => .ok t.iso
  | .moment m => .ok m.iso
  | .list vs => (writtenItems vs).map fun ts => '[' :: Text.join ", " ts ++ [']']
  | .table es => (writtenPairs es).map (braced [','])

def writtenItems : List Value → Except Clash (List Text)
  | [] => .ok []
  | .table es :: vs => do
    let ps ← writtenPairs es
    return braced ", " ps :: (← writtenItems vs)
  | v :: vs => do
    let t ← written v
    return t :: (← writtenItems vs)

def writtenPairs : List (Text × Value) → Except Clash (List (Bool × Text))
  | [] => .ok []
  | (key, v) :: es => do
    let t ← written v
    return (isTableValue v, (Key.ofName key).raw ++ " = " ++ t) :: (← writtenPairs es)

end

def newTable (head : Head) (es : List (Text × Item)) : Section :=
  .mk head ((tablesLast (·.2.isTable) es).foldl Body.addNew [])

mutual

def newItem : Value → Except Clash Item
  | .table es => (newItems es).map fun es => .table (newTable {} es)
  | .list vs =>
    if !vs.isEmpty && vs.all isTableValue then (newRows vs).map (.rows [])
    else (written (.list vs)).map fun raw => .value {} raw (.list vs)
  | v => (written v).map fun raw => .value {} raw v

def newItems : List (Text × Value) → Except Clash (List (Text × Item))
  | [] => .ok []
  | (key, v) :: es => do
    let item ← newItem v
    return (key, item) :: (← newItems es)

def newRows : List Value → Except Clash (List Section)
  | .table es :: vs => do
    let es ← newItems es
    return newTable { isRow := true } es :: (← newRows vs)
  | _ => .ok []

end

def newSection (values : Table) : Except Clash Section :=
  (newItems values).map fun es => .mk {} (es.foldl Body.addNew [])

/-! The place of a new table. -/

inductive Obstacle where
  | notTable (key : Text)
  | present
  | clash (e : Clash)
deriving DecidableEq, Repr

inductive Site where
  | lines
  | braces
  | dotted
deriving DecidableEq, Repr

namespace Site

def inner : Site → Site
  | lines => lines
  | _ => dotted

def margin (site : Site) (spaces : Text) (b : Body) : Margin :=
  let m : Margin := match site with
    | lines => b.newMargin
    | _ => {}
  { m with indent := Body.indented spaces m.indent }

def lookUp (b : Body) (name : Text) : Except Obstacle Body :=
  ((b.visit name).bind (·.visit name)).mapError .clash

/-- Puts a table at the end of a way through a body at the site. What is not there yet becomes a
table without a header. Of a table in several places the first takes in what is new. -/
def add (new : Except Clash Section) :
    (way : List Text) → Site → (spaces : Text) → Body → Except Obstacle Body
  | [], _, _, b => .ok b
  | name :: way, site, spaces, b =>
    if !b.has name then
      if way.isEmpty then
        match new with
        | .error e => .error (.clash e)
        | .ok t =>
          if site = .braces then .error (.clash .headerInBraces)
          else
            let head := { t.head with margin := site.margin spaces b }
            .ok (b ++ [(some (Key.ofName name), .table (.mk head t.body))])
      else if site = .braces then .error (.clash .headerInBraces)
      else
        let m := site.margin spaces b
        (add new way .lines (Body.spacesOf m.indent) []).map fun inner =>
          b ++ [(some (Key.ofName name), .table (.mk { margin := m, isFrame := some true } inner))]
    else do
      let b ← lookUp b name
      if way.isEmpty then .error .present
      else if b.count name < 2 || !((b.spread name).has (way.headD [])) then
        match b.findIdx? (·.1.any (·.name = name)) with
        | none => .ok b
        | some i =>
          match b[i]? with
          | some (_, .table t) =>
            (add new way site.inner (Body.spacesOf t.head.margin.indent) t.body).map fun inner =>
              b.put i (.table (t.withBody inner))
          | some (_, .inline m _ inner) =>
            (add new way .braces [] inner).map fun inner => b.put i (.braces m inner)
          | _ => .error (.notTable name)
      else (add new way site.inner [] (b.spread name)).map (b.gather name)

/-- What stands at the end of a way through a body. A table in several places is one table. -/
def look : (way : List Text) → Body → Except Clash (Option Masthead.Toml.Shape)
  | [], _ => .ok (some .table)
  | name :: way, b =>
    if !b.has name then .ok none
    else do
      let b ← (b.visit name).bind (·.visit name)
      if b.count name < 2 || !(way.isEmpty || (b.spread name).has (way.headD [])) then
        match b.findIdx? (·.1.any (·.name = name)) with
        | none => return none
        | some i =>
          match b[i]? with
          | some (_, .table t) => look way t.body
          | some (_, .inline _ _ inner) => look way inner
          | some _ => return if way.isEmpty then some .other else none
          | none => return none
      else look way (b.spread name)

end Site
end Masthead.Backend.Toml
