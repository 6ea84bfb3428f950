import Masthead.Workspace.Tree

/-! What sets the regular files of one tree apart from those of another. -/

namespace Masthead.Tree

inductive Change where
  | written (place : Place) (bytes : List UInt8)
  | removed (place : Place)
deriving DecidableEq, Repr

def bytesAt? (t : Tree) (place : Place) : Option (List UInt8) :=
  match t.at? place with
  | some (.file bytes _) => some bytes
  | _ => none

def changes (before after : Tree) : List Change :=
  ((after.files []).filter fun e => before.bytesAt? e.1 ≠ some e.2).map
    (fun e => .written e.1 e.2) ++
    ((before.files []).filter fun e => after.bytesAt? e.1 = none).map fun e => .removed e.1

end Masthead.Tree
