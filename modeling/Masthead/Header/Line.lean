import Masthead.Config
import Masthead.Text.Case
import Masthead.Text.Digit

/-! The lines of a header, and how each is recognized on its own. -/

namespace Masthead

/-- How headers look in one kind of file: the comment sign in front of every line, and the least
indentation of a line that credits a further contributor. -/
structure Dialect where
  commentPrefix : Text := ['/', '/']
  indent : Int := 10
deriving DecidableEq, Repr

def Config.dialect (c : Config) : Dialect where
  commentPrefix := c.commentPrefix
  indent := max 1 (min (defaultIndent : Int) (room c.nameColumn c.commentPrefix))

namespace Header

inductive Line where
  | separator
  | copyright (first last : Nat) (who : Contributor)
  | continuation (who : Contributor)
  | spdx (license : Text) (url : Option Text) (maintainer : Option Text)
  | other
deriving DecidableEq, Repr

def word (s : Text) : Text := s.takeWhile (!Text.isBlank ·)

def afterWord (s : Text) : Text := s.dropWhile (!Text.isBlank ·)

def isAddress (w : Text) : Bool := w.tail.dropLast.contains '@'

def address? (s : Text) : Option Text := if isAddress (word s) then some (word s) else none

/-- Skips blanks, `least` or more, and goes on with `next`; of several ways the longest skip
counts. -/
def blanksThen {α : Type} (next : Text → Option α) : (least : Nat) → Text → Option α
  | least, c :: rest =>
    if Text.isBlank c then
      match blanksThen next (least - 1) rest with
      | some a => some a
      | none => if least = 0 then next (c :: rest) else none
    else if least = 0 then next (c :: rest)
    else none
  | least, [] => if least = 0 then next [] else none

/-- Takes one or more characters of the line, as few as `next` can go on from. -/
def shortestThen {α : Type} (next : Text → Option α) : Text → Option (Text × α)
  | [] => none
  | c :: rest =>
    if c = '\n' then none
    else match next rest with
      | some a => some ([c], a)
      | none => (shortestThen next rest).map fun (s, a) => (c :: s, a)

def person? (s : Text) : Option Contributor :=
  (shortestThen (blanksThen address? 2) s).map fun (name, email) => ⟨Text.strip name, email⟩

def year? : Text → Option (Nat × Text)
  | a :: b :: c :: d :: rest => (Text.decimal? [a, b, c, d]).map fun n => (n, rest)
  | _ => none

def yearSpan? (s : Text) : Option (Nat × Nat × Text) :=
  match year? s with
  | none => none
  | some (first, '-' :: rest) => (year? rest).map fun (last, rest) => (first, last, rest)
  | some (first, rest) => some (first, first, rest)

def body? (d : Dialect) (line : Text) : Option Text := Text.dropIgnoringCase? d.commentPrefix line

def isSeparator (d : Dialect) (line : Text) : Bool :=
  match Text.drop? d.commentPrefix line with
  | none => false
  | some rest =>
    let fill := rest.takeWhile (· ∈ Config.separatorChars)
    !fill.isEmpty && (rest.drop fill.length == [] || rest.drop fill.length == ['\n'])

def copyright? (d : Dialect) (line : Text) : Option Line := do
  let s ← body? d line
  let s ← Text.dropIgnoringCase? "Copyright" (Text.stripLeft s)
  let s ← Text.dropIgnoringCase? "(c)" (Text.stripLeft s)
  let (first, last, s) ← yearSpan? (Text.stripLeft s)
  let who ← blanksThen person? 1 s
  some (.copyright first last who)

def url? (s : Text) : Option Text :=
  let w := word s
  match Text.dropIgnoringCase? "http" w with
  | none => none
  | some rest =>
    let rest := (Text.dropIgnoringCase? ['s'] rest).getD rest
    match Text.drop? "://" rest with
    | some (_ :: _) => some w
    | _ => none

def spdx? (d : Dialect) (line : Text) : Option Line := do
  let s ← body? d line
  let s ← Text.dropIgnoringCase? "SPDX-License-Identifier:" (Text.stripLeft s)
  let s := Text.stripLeft s
  if (word s).isEmpty then none
  else
    let behind := afterWord s
    match url? (Text.stripLeft behind) with
    | some url =>
      let behind := afterWord (Text.stripLeft behind)
      some (.spdx (word s) url (address? (Text.stripLeft behind)))
    | none => some (.spdx (word s) none (address? (Text.stripLeft behind)))

def boundsThen {α : Type} (next : Text → Option α) (indent : Int) : Text → Option α
  | c :: rest =>
    if Text.isBlank c then (Text.drop? ('\x7b' :: Text.ofInt indent ++ [',', '\x7d']) rest).bind
      next
    else none
  | [] => none

def continuation? (d : Dialect) (line : Text) : Option Line := do
  let s ← Text.drop? d.commentPrefix line
  let who ← if d.indent < 0 then boundsThen person? d.indent s
    else blanksThen person? d.indent.toNat s
  some (.continuation who)

def chop (line : Text) : Text := (line.reverse.dropWhile (· = '\r')).reverse

/-- What a line says; the first reading that fits counts. -/
def classify (d : Dialect) (line : Text) : Line :=
  let line := chop line
  if isSeparator d line then .separator
  else (((copyright? d line).or (spdx? d line)).or (continuation? d line)).getD .other

end Header
end Masthead
