import Masthead.Backend.Toml.Reader

/-! Reading TOML documents. A table goes on to the next header that does not lead into it. -/

namespace Masthead.Backend.Toml

abbrev Document := Body

inductive Fault where
  | malformed
  | clash (e : Clash)
deriving DecidableEq, Repr

inductive Statement where
  | plain (item : Item)
  | pair (keys : List Key) (item : Item)
  | header

namespace Statement

def ofText (s : Text) : Reading Statement :=
  let indent := s.takeWhile isSpace
  match skipSpaces s with
  | [] => .read (.plain (.blank s)) []
  | '\n' :: rest => .read (.plain (.blank (indent ++ ['\n']))) rest
  | '#' :: _ =>
    (lineEnd (skipSpaces s)).bind fun m rest => .read (.plain (.comment { m with indent })) rest
  | '[' :: _ => .read .header s
  | line =>
    (keyAndSign line).bind fun ks rest =>
      (value depthLimit (rest.length + 1) rest).bind fun item rest =>
        (lineEnd rest).bind fun m rest =>
          .read (.pair ks (item.mapMargin fun own =>
            { m with indent, gap := if own.gap.isEmpty then m.gap else own.gap })) rest

end Statement

structure Header where
  many : Bool
  keys : List Key
  margin : Margin

namespace Header

def names (h : Header) : List Text := h.keys.map (·.name)

def ahead (s : Text) : Reading (Bool × List Key) :=
  let (many, tail) := match (skipSpaces s).drop 1 with
    | '[' :: tail => (true, tail)
    | tail => (false, tail)
  if tail.isEmpty then .bad else (keyPath tail).map fun ks => (many, ks)

def ofText (s : Text) : Reading Header :=
  (ahead s).bind fun (many, keys) rest =>
    match rest, many with
    | ']' :: ']' :: rest, true =>
      (lineEnd rest).map fun m => { many, keys, margin := { m with indent := s.takeWhile isSpace } }
    | ']' :: rest, false =>
      (lineEnd rest).map fun m => { many, keys, margin := { m with indent := s.takeWhile isSpace } }
    | rest, _ => .stuck rest

def head (h : Header) : Head where
  margin := h.margin
  title := Key.path h.keys
  isRow := h.many
  isFrame := some false

def entry (h : Header) (isRow : Bool) (item : Item) : (keys : List Key) → Option (Key × Item)
  | [] => none
  | [k] => some (k, item)
  | k :: ks =>
    (inner item ks).map fun e =>
      (k, .table (.mk
        { margin := { h.margin with indent := [] }, isRow, isFrame := some true } [e]))
where
  inner (item : Item) : List Key → Option (Option Key × Item)
    | [] => none
    | [k] => some (some k, item)
    | k :: ks => (inner item ks).map fun e =>
      (some k, .table (.mk { margin := h.margin, isFrame := some true } [e]))

end Header

def Section.push (t : Section) (ks : List Key) (item : Item) : Except Clash Section := do
  let b ← t.body.addPath false ks item
  let b ← match ks with
    | k :: _ => b.visit k.name
    | [] => pure b
  return t.withBody b

def leadsInto (table path : List Text) : Bool := table.isPrefixOf path && table != path

mutual

/-- Reads what belongs to a table behind its header; `rows` are the paths of the tables around it
that share their headers with others, and `path` is its own. -/
def fill : Nat → (rows : List (List Text)) → (path : List Text) → Section → Text → Reading Section
  | 0, _, _, _, _ => .bad
  | _, _, _, t, [] => (Reading.ofExcept [] t.body.settled).map t.withBody
  | fuel + 1, rows, path, t, s =>
    (Statement.ofText s).bind fun x rest =>
      match x with
      | .plain item => fill fuel rows path (t.withBody (t.body.addPlain item)) rest
      | .pair ks item =>
        (Reading.ofExcept rest (t.push ks item)).bind fun t rest => fill fuel rows path t rest
      | .header => children fuel rows path t s

def children : Nat → (rows : List (List Text)) → (path : List Text) → Section → Text →
    Reading Section
  | 0, _, _, _, _ => .bad
  | _, _, _, t, [] => (Reading.ofExcept [] t.body.settled).map t.withBody
  | fuel + 1, rows, path, t, s =>
    (Header.ahead s).bind fun (_, ks) _ =>
      if leadsInto path (ks.map (·.name)) then
        (tables fuel rows path s).bind fun (k, item) rest =>
          (Reading.ofExcept rest (t.push [k] item)).bind fun t rest =>
            children fuel rows path t rest
      else (Reading.ofExcept s t.body.settled).map t.withBody

def tables : Nat → (rows : List (List Text)) → (parent : List Text) → Text → Reading (Key × Item)
  | 0, _, _, _ => .bad
  | fuel + 1, rows, parent, s =>
    (Header.ofText s).bind fun h rest =>
      (fill fuel rows h.names (.mk h.head []) rest).bind fun t rest =>
        let keys := h.keys.drop parent.length
        let isRow := h.many && (keys.head?.any fun k => rows.contains [k.name])
        let items : Reading Item :=
          if !h.many then .read (.table t) rest
          else if 1 < keys.length then .read (.rows [] [t]) rest
          else (moreRows fuel (rows ++ [h.names]) h.names rest).map fun ts => .rows [] (t :: ts)
        items.bind fun item rest =>
          match h.entry isRow item keys with
          | some e => .read e rest
          | none => .bad

def moreRows : Nat → (rows : List (List Text)) → (path : List Text) → Text → Reading (List Section)
  | 0, _, _, _ => .bad
  | _, _, _, [] => .read [] []
  | fuel + 1, rows, path, s =>
    (Header.ahead s).bind fun (many, ks) _ =>
      if many && ks.map (·.name) == path then
        (Header.ofText s).bind fun h rest =>
          (fill fuel rows path (.mk h.head []) rest).bind fun t rest =>
            (moreRows fuel rows path rest).map (t :: ·)
      else .read [] s

end

namespace Document

/-- What does not fit together outside of tables makes the document malformed. -/
def outside (rest : Text) : Except Clash Document → Reading Document
  | .ok d => .read d rest
  | .error _ => .bad

def tablesFrom : Nat → Document → Text → Reading Document
  | 0, _, _ => .bad
  | _, d, [] => .read d []
  | fuel + 1, d, s =>
    (tables fuel [] [] s).bind fun (k, item) rest =>
      (outside rest (d.add true k item)).bind fun d rest => tablesFrom fuel d rest

def linesFrom : Nat → Document → Text → Reading Document
  | 0, _, _ => .bad
  | _, d, [] => .read d []
  | fuel + 1, d, s =>
    (Statement.ofText s).bind fun x rest =>
      match x with
      | .plain item => linesFrom fuel (d.addPlain item) rest
      | .pair ks item =>
        (outside rest (d.addPath true ks item)).bind fun d rest => linesFrom fuel d rest
      | .header => tablesFrom (fuel + 1) d s

def parse (s : Text) : Except Fault Document :=
  match linesFrom (2 * s.length + 2) [] s with
  | .read d _ => .ok d
  | .clash e => .error (.clash e)
  | _ => .error .malformed

end Document

def parse (s : Text) : Except Fault Table :=
  (Document.parse s).bind fun d => d.meaning.mapError .clash

end Masthead.Backend.Toml
