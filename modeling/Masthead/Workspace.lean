import Masthead.Log
import Masthead.Source
import Masthead.Workspace.Fault

/-! What the program works on: the files, the directory it runs in, the year, the surroundings, git,
and the terminal. Actions read and change it; what an action has done stays done when it fails later
on. -/

namespace Masthead

namespace Git

/-- One use of git: its arguments, and the directory it runs in. -/
structure Call where
  arguments : List Text
  directory : Tree.Place
deriving DecidableEq, Repr

inductive Reply where
  | exit (code : Int) (output : Text)
  | unavailable
deriving DecidableEq, Repr

end Git

structure Workspace where
  tree : Tree
  cwd : Tree.Place
  year : Int
  logLevel : Option Text := none
  surroundings : Terminal.Surroundings := {}
  git : List Git.Call → Git.Call → Git.Reply
  calls : List Git.Call := []
  input : Text := []
  output : Text := []
  errors : List Log.Entry := []
  /-- The least level of the records that are shown. -/
  threshold : Nat := Log.defaultLevel

abbrev Act := ExceptT Fault (StateM Workspace)

namespace Act

def fail {α : Type} (e : Fault) : Act α := throw e

def attempt {α : Type} (act : Act α) : Act (Except Fault α) :=
  fun w => let (r, w) := act w; (.ok r, w)

def ofExcept {ε α : Type} (f : ε → Fault) : Except ε α → Act α
  | .ok a => pure a
  | .error e => throw (f e)

def demandRoom : Option Excess → Act Unit
  | none => pure ()
  | some e => throw (.excess e)

/-! The terminal. -/

def report (entry : Log.Entry) : Act Unit :=
  modify fun w => { w with errors := w.errors ++ [entry] }

def printError (s : Text) : Act Unit := report (.said s)

def printOutput (s : Text) : Act Unit := modify fun w => { w with output := w.output ++ s }

def log (level : Log.Level) (message : Text) : Act Unit := do
  if (← get).threshold ≤ level.value then report (.record level message)

/-! Files. -/

def startOf (p : Path) : Act Tree.Place := do
  if p.isAbsolute then return [] else return (← get).cwd

def ofPlace (place : Tree.Place) : Path := ⟨['/'], place⟩

def fileFault {α : Type} (e : Tree.Error) (p : Path) : Act α := throw (.file ⟨e, p.text⟩)

def pathLimit : Nat := 4095

def find (p : Path) : Act (Except Tree.Error (Tree.Place × Option Tree)) := do
  if p.hasNull then throw .nullByte
  else if pathLimit < Tree.byteCount p.text then return .error .nameTooLong
  else return (← get).tree.find (← startOf p) p.parts

/-- What a path leads to, if something is there. A name that is too long is more than a sign that
nothing is. -/
def lookUp (p : Path) : Act (Option (Tree.Place × Tree)) := do
  if p.hasNull then return none
  else match ← find p with
    | .ok (place, t) => return t.map fun t => (place, t)
    | .error .nameTooLong => fileFault .nameTooLong p
    | .error _ => return none

def entry? (p : Path) : Act (Option Tree) := return (← lookUp p).map (·.2)

def isFile (p : Path) : Act Bool := do return (← entry? p).any (·.isFile)

def isDir (p : Path) : Act Bool := do return (← entry? p).any (·.isDir)

def isThere (p : Path) : Act Bool := do return (← entry? p).isSome

def realPlace (p : Path) : Act Tree.Place := do
  return (← get).tree.real (← startOf p) p.parts

/-- The path of the same place without links, which must not lead in a circle. -/
def resolve (p : Path) : Act Path := do
  if p.hasNull then throw .nullByte
  else
    let q := ofPlace (← realPlace p)
    match ← find q with
    | .error .tooManyLinks => throw (.linkLoop q.text)
    | _ => return q

def readBytes (p : Path) : Act (List UInt8) := do
  match ← find p with
  | .error e => fileFault e p
  | .ok (_, none) => fileFault .missing p
  | .ok (_, some (.file bytes _)) => return bytes
  | .ok (_, some _) => fileFault .isDirectory p

def readRaw (p : Path) : Act Text := do
  ofExcept .encoding (Utf8.decode (← readBytes p))

def readText (p : Path) : Act Text := return Source.normalize (← readRaw p)

def setTree (f : Tree → Tree) : Act Unit := modify fun w => { w with tree := f w.tree }

def writeBytes (p : Path) (bytes : List UInt8) : Act Unit := do
  match ← find p with
  | .error e => fileFault e p
  | .ok (_, some (.dir _)) => fileFault .isDirectory p
  | .ok (place, _) =>
    setTree <| Tree.alter (fun
      | some (.file _ isExecutable) => some (.file bytes isExecutable)
      | _ => some (.file bytes false)) place

def writeText (p : Path) (s : Text) : Act Unit := writeBytes p (Utf8.encode s)

/-- A file is emptied before a text turns out to be none that can be written. -/
def writePoints (p : Path) (s : Points) : Act Unit := do
  match s.half? with
  | none => writeText p s.chars
  | some e => do
    writeBytes p []
    throw (.unencodable e)

def isLink (p : Path) : Act Bool := do
  match (← get).tree.at? ((← realPlace p.parent) ++ [p.name]) with
  | some (.link _) => return true
  | _ => return false

def addDir (place : Tree.Place) : Act Unit := setTree (Tree.alter (fun _ => some (.dir [])) place)

def makeOne (p : Path) : Act Unit := do
  if ← isDir p then pure ()
  else if ← isLink p then fileFault .exists p
  else match ← find p with
    | .ok (_, some _) => fileFault .exists p
    | .ok (place, none) => addDir place
    | .error e => fileFault e p

/-- Makes a directory, and those above it as far as they are missing, unless it is there already. -/
def makeDirs (p : Path) : (above : Nat) → Act Unit
  | 0 => fileFault .missing p
  | above + 1 => do
    match ← attempt (makeOne p) with
    | .ok () => pure ()
    | .error (.file ⟨.missing, _⟩) => do
      makeDirs p.parent above
      makeOne p
    | .error e => throw e

def makeDir (p : Path) : Act Unit := makeDirs p (p.parts.length + 1)

def plant (place : Tree.Place) (t : Tree) : Act Unit := do
  makeDir (ofPlace place.dropLast)
  setTree (Tree.alter (fun _ => some t) place)

def makeExecutable (p : Path) : Act Unit := do
  match ← find p with
  | .ok (place, some (.file bytes _)) =>
    setTree (Tree.alter (fun _ => some (.file bytes true)) place)
  | _ => pure ()

def removeFile (p : Path) : Act Unit := do
  if p.hasNull then throw .nullByte
  let place := (← realPlace p.parent) ++ [p.name]
  match (← get).tree.at? place with
  | none => fileFault .missing p
  | some (.dir _) => fileFault .isDirectory p
  | some _ => setTree (Tree.alter (fun _ => none) place)

def removeEmptyDir (p : Path) : Act Unit := do
  let place := (← realPlace p.parent) ++ [p.name]
  match (← get).tree.at? place with
  | some (.dir []) => setTree (Tree.alter (fun _ => none) place)
  | _ => pure ()

def readSource (p : Path) : Act Source := return Source.read (← readRaw p)

def writeSource (p : Path) (s : Text) (newline : Newline) : Act Unit :=
  writeText p (Source.write s newline)

end Act
end Masthead
