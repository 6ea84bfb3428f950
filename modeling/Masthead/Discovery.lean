import Masthead.Glob
import Masthead.Workspace

/-! Finding the files to work on. Directories are searched to the bottom, but links to directories
are not entered, nor those that hold the data of version control, nor those that an exclusion
covers. -/

namespace Masthead.Discovery

def skippedNames : List Text := [".git".toList, ".hg".toList, ".svn".toList]

def way (base place : Tree.Place) : List Text :=
  match base, place with
  | b :: base, p :: place =>
    if b = p then way base place
    else List.replicate (base.length + 1) ['.', '.'] ++ p :: place
  | base, place => List.replicate base.length ['.', '.'] ++ place

/-- The names that a path is reported under: those behind `base` as they stand, if it starts with
them. -/
def reported (base names : Tree.Place) : Text :=
  let relative :=
    if base.isPrefixOf names then names.drop base.length else way base (Tree.collapse names)
  (Path.mk [] relative).text

/-- A directory whose files are left out: it has a special name, or an exclusion covers it. -/
def isPruned (base : Tree.Place) (excludes : List Text) (names : Tree.Place) : Bool :=
  skippedNames.contains (names.getLast?.getD []) ||
    matchesAnyGlob (reported base names ++ ['/']) excludes

def leadsToDir (top : Tree) (place : Tree.Place) : Bool :=
  match top.find [] place with
  | .ok (_, some t) => t.isDir
  | _ => false

mutual

/-- The files below a directory, which has the place `here` in the tree `top` and is reached by the
path `names`. -/
def filesIn (top : Tree) (base : Tree.Place) (excludes : List Text) (here names : Tree.Place) :
    List (Text × Tree) → List Text
  | [] => []
  | (name, t) :: es =>
    filesAt top base excludes (here ++ [name]) (names ++ [name]) t ++
      filesIn top base excludes here names es

def filesAt (top : Tree) (base : Tree.Place) (excludes : List Text) (here names : Tree.Place) :
    Tree → List Text
  | .file .. => [reported base names]
  | .dir es =>
    if isPruned base excludes names then [] else filesIn top base excludes here names es
  | .link _ => if leadsToDir top here then [] else [reported base names]

end

def candidates (base : Tree.Place) (excludes : List Text) (entry : Text) : Act (List Text) := do
  let p := (Act.ofPlace base).join (Path.ofText entry)
  match ← Act.lookUp p with
  | some (place, .file ..) => return [reported base place]
  | some (place, .dir es) =>
    return filesIn (← get).tree base excludes place p.parts es
  | _ => do
    Act.log .warning ("Path not found: " ++ entry)
    return []

/-- The files to work on, as seen from `base`, each of them once and in order. No entries stand for
`base` itself. -/
def discover (entries includes excludes : List Text) (base : Path) : Act (List Text) := do
  let base := (← Act.resolve base).parts
  let entries := if entries.isEmpty then [['.']] else entries
  let found ← entries.mapM (candidates base excludes)
  return filterPaths (Text.sort found.flatten.eraseDups) includes excludes

end Masthead.Discovery
