import Masthead.Text.Basic

/-! Texts of source files. Line breaks are line feeds while a text is worked on, and what the file
used when it is written back. The preamble, a byte order mark and an interpreter line, stays at the
top. -/

namespace Masthead

inductive Newline where
  | lf
  | crlf
  | cr
deriving DecidableEq, Repr

def Newline.text : Newline → Text
  | .lf => ['\n']
  | .crlf => ['\r', '\n']
  | .cr => ['\r']

structure Source where
  text : Text
  newline : Newline
  mixed : Bool
deriving DecidableEq, Repr

namespace Source

def firstNewline : Text → Newline
  | [] => .lf
  | '\n' :: _ => .lf
  | '\r' :: '\n' :: _ => .crlf
  | '\r' :: _ => .cr
  | _ :: rest => firstNewline rest

/-- Every line break made a line feed. -/
def normalize : Text → Text
  | [] => []
  | '\r' :: '\n' :: rest => '\n' :: normalize rest
  | '\r' :: rest => '\n' :: normalize rest
  | c :: rest => c :: normalize rest

def countPairs : Text → Nat
  | '\r' :: '\n' :: rest => countPairs rest + 1
  | _ :: rest => countPairs rest
  | [] => 0

def isMixed (raw : Text) : Bool :=
  let pairs := countPairs raw
  let returns := raw.count '\r' - pairs
  let feeds := raw.count '\n' - pairs
  1 < [pairs, returns, feeds].countP (· ≠ 0)

def read (raw : Text) : Source := ⟨normalize raw, firstNewline raw, isMixed raw⟩

def write (s : Text) (newline : Newline) : Text :=
  s.flatMap fun c => if c = '\n' then newline.text else [c]

def byteOrderMark : Char := '\ufeff'

def splitDirective (s : Text) : Text × Text :=
  if Text.startsWith s ['#', '!'] then
    let line := s.takeWhile (· ≠ '\n')
    let rest := s.drop line.length
    (line ++ rest.take 1, rest.drop 1)
  else ([], s)

def splitPreamble (s : Text) : Text × Text :=
  match s with
  | '\ufeff' :: rest =>
    let (directive, body) := splitDirective rest
    (byteOrderMark :: directive, body)
  | _ => splitDirective s

/-- The preamble with a line feed behind an interpreter line that has none. -/
def closePreamble (preamble : Text) : Text :=
  if preamble = [] ∨ preamble = [byteOrderMark] ∨ preamble.getLast? = some '\n' then preamble
  else preamble ++ ['\n']

def joinPreamble (preamble body : Text) : Text := closePreamble preamble ++ body

end Source
end Masthead
