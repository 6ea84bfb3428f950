import Masthead.Diff.Match
import Masthead.Paint
import Masthead.Text.Digit

/-! Differences between two texts, line by line, with a few common lines around each change. -/

namespace Masthead.Diff

inductive Kind where
  | equal
  | replace
  | delete
  | insert
deriving DecidableEq, Repr

/-- The old lines from `i` to `i'` become the new lines from `j` to `j'`. A range that was cut to
fewer than no lines runs backwards. -/
structure Edit where
  kind : Kind
  i : Int
  i' : Int
  j : Int
  j' : Int
deriving DecidableEq, Repr

def editsFrom (i j : Int) (ends : Int × Int) : List Block → List Edit
  | [] => change i ends.1 j ends.2
  | k :: ks =>
    change i k.i j k.j ++ ⟨.equal, k.i, k.i + k.size, k.j, k.j + k.size⟩ ::
      editsFrom (k.i + k.size) (k.j + k.size) ends ks
where
  change (i i' j j' : Int) : List Edit :=
    if i < i' ∧ j < j' then [⟨.replace, i, i', j, j'⟩]
    else if i < i' then [⟨.delete, i, i', j, j'⟩]
    else if j < j' then [⟨.insert, i, i', j, j'⟩]
    else []

def edits (a b : List Text) : List Edit := editsFrom 0 0 (a.length, b.length) (blocks a b)

def Edit.lastLines (n : Int) (e : Edit) : Edit :=
  { e with i := max e.i (e.i' - n), j := max e.j (e.j' - n) }

def Edit.firstLines (n : Int) (e : Edit) : Edit :=
  { e with i' := min e.i' (e.i + n), j' := min e.j' (e.j + n) }

def trimStart (n : Int) : List Edit → List Edit
  | e :: es => if e.kind = .equal then e.lastLines n :: es else e :: es
  | [] => []

def trimEnd (n : Int) : List Edit → List Edit
  | [] => []
  | [e] => if e.kind = .equal then [e.firstLines n] else [e]
  | e :: es => e :: trimEnd n es

def isIdle : List Edit → Bool
  | [] => true
  | [e] => e.kind = .equal
  | _ => false

/-- Cuts the edits in two wherever more than `2 * n` common lines stand between changes; `group` is
what the current part already holds, last edit first. -/
def groupsFrom (n : Int) (group : List Edit) : List Edit → List (List Edit)
  | [] => if isIdle group then [] else [group.reverse]
  | e :: es =>
    if e.kind = .equal ∧ 2 * n < e.i' - e.i then
      (e.firstLines n :: group).reverse :: groupsFrom n [e.lastLines n] es
    else groupsFrom n (e :: group) es

def hunks (n : Int) (a b : List Text) : List (List Edit) :=
  groupsFrom n [] (trimEnd n (trimStart n (edits a b)))

def rangeText (first last : Int) : Text :=
  if last - first = 1 then Text.ofInt (first + 1)
  else
    Text.ofInt (if last = first then first else first + 1) ++ "," ++ Text.ofInt (last - first)

def linesBefore (n : Nat) (i : Int) : Nat := min n (if i < 0 then i + n else i).toNat

def between (i i' : Int) (ls : List Text) : List Text :=
  slice (linesBefore ls.length i) (linesBefore ls.length i') ls

def Edit.lines (a b : List Text) (e : Edit) : List Text :=
  match e.kind with
  | .equal => (between e.i e.i' a).map (' ' :: ·)
  | _ => (between e.i e.i' a).map ('-' :: ·) ++ (between e.j e.j' b).map ('+' :: ·)

def hunkHeader (group : List Edit) : Text :=
  match group.head?, group.getLast? with
  | some first, some last =>
    "@@ -" ++ rangeText first.i last.i' ++ " +" ++ rangeText first.j last.j' ++ " @@"
  | _, _ => []

/-- The lines of the difference between two texts, with `context` common lines around each change.
There are none when the texts are equal, unless `context` is below zero. -/
def unified (before after path : Text) (context : Int) : List Text :=
  let a := Text.lines before
  let b := Text.lines after
  let groups := hunks context a b
  if groups.isEmpty then []
  else
    ["--- a/" ++ path, "+++ b/" ++ path] ++
      groups.flatMap fun group => hunkHeader group :: group.flatMap (Edit.lines a b)

def defaultContext : Int := 3

variable [Painter]

def renderLine (color : Bool) (line : Text) : Text :=
  let content := line.flatMap fun c => if c = '\r' then ['\\', 'r'] else [c]
  match color, line with
  | true, '-' :: _ => Painter.paint [.bold, .red] content
  | true, '+' :: _ => Painter.paint [.bold, .green] content
  | true, '@' :: _ => Painter.paint [.cyan] content
  | _, _ => content

def render (color : Bool) (lines : List Text) : Text :=
  lines.flatMap fun line => renderLine color line ++ ['\n']

def renderText (color : Bool) (s : Text) : Text := render color (Text.looseLines s)

end Masthead.Diff
