import Masthead.Text.Basic

/-! Trees of files. A place is the list of names that leads to it from the top. Links are followed
as far as a limit allows, so that links in a circle come to an end. -/

namespace Masthead

inductive Tree where
  | file (bytes : List UInt8) (isExecutable : Bool)
  | dir (entries : List (Text × Tree))
  | link (target : Text)
deriving Repr

inductive Tree.Error where
  | missing
  | exists
  | notDirectory
  | isDirectory
  | nameTooLong
  | notEmpty
  | tooManyLinks
deriving DecidableEq, Repr

namespace Tree

def Error.code : Error → Nat
  | .missing => 2
  | .exists => 17
  | .notDirectory => 20
  | .isDirectory => 21
  | .nameTooLong => 36
  | .notEmpty => 39
  | .tooManyLinks => 40

def Error.description : Error → Text
  | .missing => "No such file or directory"
  | .exists => "File exists"
  | .notDirectory => "Not a directory"
  | .isDirectory => "Is a directory"
  | .nameTooLong => "File name too long"
  | .notEmpty => "Directory not empty"
  | .tooManyLinks => "Too many levels of symbolic links"

abbrev Place := List Text

def entries : Tree → List (Text × Tree)
  | .dir es => es
  | _ => []

def isDir : Tree → Bool
  | .dir _ => true
  | _ => false

def isFile : Tree → Bool
  | .file .. => true
  | _ => false

def child? (t : Tree) (name : Text) : Option Tree := (t.entries.find? (·.1 = name)).map (·.2)

def at? (t : Tree) : Place → Option Tree
  | [] => some t
  | name :: place =>
    match t.child? name with
    | some t => at? t place
    | none => none

def alterEntry (name : Text) (f : Option Tree → Option Tree) :
    List (Text × Tree) → List (Text × Tree)
  | [] => (f none).toList.map fun t => (name, t)
  | (n, t) :: es =>
    if n = name then (f (some t)).toList.map (fun t => (name, t)) ++ es
    else (n, t) :: alterEntry name f es

def alter (f : Option Tree → Option Tree) : Place → Tree → Tree
  | [], t => (f (some t)).getD t
  | [name], .dir es => .dir (alterEntry name f es)
  | name :: place, .dir es =>
    .dir (es.map fun e => if e.1 = name then (e.1, alter f place e.2) else e)
  | _, t => t

def linkLimit : Nat := 40

def isUp (name : Text) : Bool := name == ['.', '.']

def linkStart (here : Place) (target : Text) : Place :=
  if Text.startsWith target ['/'] then [] else here

def namesOf (path : Text) : List Text :=
  (Text.splitOn '/' path).filter fun name => name ≠ [] ∧ name ≠ ['.']

def byteCount (s : Text) : Nat := s.foldl (fun n c => n + c.utf8Size) 0

def nameLimit : Nat := 255

def collapse (names : List Text) : List Text :=
  (names.foldl (fun (before : List Text) name =>
    if isUp name then before.tail else name :: before) []).reverse

/-- Goes from a directory along names, following links. The result is where the way ends, which may
be a name in an existing directory that nothing has yet. -/
def follow (t : Tree) (links : Nat) (here : Place) (names : List Text) : Except Error Place :=
  match names with
  | [] => .ok here
  | name :: names =>
    if isUp name then follow t links here.dropLast names
    else if nameLimit < byteCount name then .error .nameTooLong
    else
      match t.at? (here ++ [name]) with
      | some (.dir _) => follow t links (here ++ [name]) names
      | some (.link target) =>
        match links with
        | 0 => .error .tooManyLinks
        | links + 1 => follow t links (linkStart here target) (namesOf target ++ names)
      | some (.file ..) => if names.isEmpty then .ok (here ++ [name]) else .error .notDirectory
      | none => if names.isEmpty then .ok (here ++ [name]) else .error .missing
termination_by (links, names.length)

mutual

def linkCount : Tree → Nat
  | .file .. => 0
  | .dir es => linkCountIn es
  | .link _ => 1

def linkCountIn : List (Text × Tree) → Nat
  | [] => 0
  | (_, t) :: es => linkCount t + linkCountIn es

end

/-- Goes along names, following links, and goes on by the names alone where nothing is. The links
that are being followed are `underway`; the way ends, with all names that are left, where it meets
one of them again. -/
def realFrom (t : Tree) (links : Nat) (underway : List Place) (here : Place) (names : List Text) :
    Place × Bool :=
  match names with
  | [] => (here, true)
  | name :: names =>
    let place := here ++ [name]
    if isUp name then realFrom t links underway here.dropLast names
    else
      match t.at? place, links with
      | some (.link target), links + 1 =>
        if underway.contains place then (place ++ names, false)
        else
          match realFrom t links (place :: underway) (linkStart here target) (namesOf target) with
          | (place, true) => realFrom t (links + 1) underway place names
          | (place, false) => (place ++ names, false)
      | _, links => realFrom t links underway place names
termination_by (links, names.length)

def real (t : Tree) (here : Place) (names : List Text) : Place :=
  collapse (realFrom t (t.linkCount + 1) [] here names).1

def find (t : Tree) (here : Place) (names : List Text) : Except Error (Place × Option Tree) :=
  (follow t linkLimit here names).map fun place => (place, t.at? place)

mutual

def files (place : Place) : Tree → List (Place × List UInt8)
  | .file bytes _ => [(place, bytes)]
  | .dir es => filesIn place es
  | .link _ => []

def filesIn (place : Place) : List (Text × Tree) → List (Place × List UInt8)
  | [] => []
  | (name, t) :: es => files (place ++ [name]) t ++ filesIn place es

end

end Tree
end Masthead
