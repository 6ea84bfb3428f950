import Masthead.Text.Basic

/-! Paths of files. A path is kept without empty and without single-dot components; double dots
stay, as what they mean depends on the files. -/

namespace Masthead

structure Path where
  root : Text
  parts : List Text
deriving DecidableEq, Repr

namespace Path

/-- The slashes a path starts with; three or more count as one. -/
def rootOf : Text → Text
  | '/' :: '/' :: '/' :: _ => ['/']
  | '/' :: '/' :: _ => ['/', '/']
  | '/' :: _ => ['/']
  | _ => []

def ofText (s : Text) : Path :=
  ⟨rootOf s, (Text.splitOn '/' s).filter fun part => part ≠ [] ∧ part ≠ ['.']⟩

def isAbsolute (p : Path) : Bool := !p.root.isEmpty

def text (p : Path) : Text :=
  if p.root.isEmpty ∧ p.parts.isEmpty then ['.'] else p.root ++ Text.join ['/'] p.parts

def hasNull (p : Path) : Bool := p.parts.any fun part => part.any (· == '\x00')

def join (p q : Path) : Path := if q.isAbsolute then q else ⟨p.root, p.parts ++ q.parts⟩

def child (p : Path) (name : Text) : Path := ⟨p.root, p.parts ++ [name]⟩

def parent (p : Path) : Path := ⟨p.root, p.parts.dropLast⟩

def name (p : Path) : Text := p.parts.getLast?.getD []

def suffix (p : Path) : Text :=
  let name := p.name
  let ending := name.reverse.takeWhile (· ≠ '.')
  if ending.isEmpty ∨ name.length ≤ ending.length + 1 then []
  else '.' :: ending.reverse

end Path
end Masthead
