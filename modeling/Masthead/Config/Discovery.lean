import Masthead.Git
import Masthead.Json.Parser
import Masthead.Toml

/-! Finding the configuration of a project. A configuration is looked for in a directory and those
above it; the nearest file that holds one counts. -/

namespace Masthead.Config

def fileName : Text := "ante.toml"

def projectFileName : Text := "pyproject.toml"

def manifestNames : List Text := ["deno.json".toList, "package.json".toList]

def sectionName : Text := "ante"

/-- A table with a configuration, and where it was found. -/
structure Found where
  path : Path
  /-- Nothing if half of a pair of units is in a text of it. -/
  table : Option Table
  camelCase : Bool := false
  license : Option Points := none

def reading {α : Type} (p : Path) (act : Act α) : Act α := do
  match ← Act.attempt act with
  | .ok a => return a
  | .error (.file e) => throw (.config (.unreadable p.text e))
  | .error e => throw e

def readText (p : Path) : Act Text := reading p (Act.readText p)

/-- A text that is no document is a fault of the configuration; what else a library stops at is one
of its own. -/
def tomlFault (p : Path) : Toml.Fault → Fault
  | .malformed => .config (.invalidToml p.text)
  | .foreign e => .foreign e

def jsonFault (p : Path) : Json.Fault → Fault
  | .malformed => .config (.invalidJson p.text)
  | .number e => .number e
  | .tooDeep e => .tooDeep e

def nonEmpty? (s : Points) : Option Points := if s.isEmpty then none else some s

def projectLicense (t : Table) : Option Points :=
  match (t.follow ["project".toList]).get? "license" with
  | some (.text s) => nonEmpty? (Points.ofText s)
  | some (.table inner) =>
    match Table.get? inner "text" with
    | some (.text s) => nonEmpty? (Points.ofText s)
    | _ => none
  | _ => none

def manifestLicense (o : Json.Object) : Option Points :=
  match o.get? "license" with
  | some (.text s) => nonEmpty? s
  | _ => none

def isManifest (p : Path) : Bool := p.suffix == ".json".toList

inductive Contents where
  | manifest (o : Json.Object)
  | settings (t : Table)

namespace Contents

def license? : Contents → Option Points
  | manifest o => manifestLicense o
  | settings t => projectLicense t

/-- The configuration in the file at `p`. A file that is `required` counts as an empty one if it
holds none. -/
def found? (p : Path) (required : Bool) : Contents → Option Found
  | manifest o =>
    match o.get? sectionName with
    | some (.object members) => some ⟨p, Json.Node.entries? members, true, manifestLicense o⟩
    | _ => if required then some ⟨p, some [], true, manifestLicense o⟩ else none
  | settings t =>
    if p.name = projectFileName then
      let tool := t.follow ["tool".toList]
      if !tool.has sectionName && !required then none
      else some ⟨p, some (tool.follow [sectionName]), false, projectLicense t⟩
    else some { path := p, table := some t }

end Contents

def sourceNames : List Text := [fileName, projectFileName] ++ manifestNames

def upwards (place : Tree.Place) : List Path :=
  (List.range (place.length + 1)).map fun n => Act.ofPlace (place.take (place.length - n))

def startDirectory (start : Path) : Act Tree.Place := do
  let place := (← Act.resolve start).parts
  return if ← Act.isFile (Act.ofPlace place) then place.dropLast else place

section
variable [Limits] [Toml.Library]

def loadToml (p : Path) : Act Table := do
  Act.ofExcept (tomlFault p) (Toml.parse (← readText p))

def loadJson (p : Path) : Act Json.Object := do
  match ← Act.ofExcept (jsonFault p) (Json.parse (← readText p)) with
  | .object o => return o
  | _ => return []

def loaded (p : Path) : Act Contents := do
  if isManifest p then return .manifest (← loadJson p) else return .settings (← loadToml p)

def read (p : Path) (required : Bool) : Act (Option Found) := do
  if ← Act.isFile p then return (← loaded p).found? p required
  else if required then throw (.config (.absent p.text))
  else return none

def firstIn (directory : Path) : List Text → Act (Option Found)
  | [] => return none
  | name :: names => do
    match ← read (directory.child name) false with
    | some found => return some found
    | none => firstIn directory names

def firstAmong : List Path → Act (Option Found)
  | [] => return none
  | directory :: above => do
    match ← firstIn directory sourceNames with
    | some found => return some found
    | none => firstAmong above

def discover (start : Path) : Act (Option Found) := do
  firstAmong (upwards (← startDirectory start))

/-- The license that a file declares; files that cannot be understood declare none. -/
def licenseIn (p : Path) : Act (Option Points) := do
  if ← Act.isFile p then
    match ← Act.attempt (loaded p) with
    | .ok contents => return contents.license?
    | .error (.config _) => return none
    | .error e => throw e
  else return none

def licenseAmong : List Path → Act (Option Points)
  | [] => return none
  | p :: ps => do
    match ← licenseIn p with
    | some license => return some license
    | none => licenseAmong ps

def detectLicense (start : Path) : Act (Option Points) := do
  licenseAmong <| (upwards (← startDirectory start)).flatMap fun directory =>
    (projectFileName :: manifestNames).map directory.child

end

def Found.draft (f : Found) : Act Draft :=
  match f.table with
  | none => throw .unpaired
  | some t => Act.ofExcept .number (Draft.read t (some f.path.text) f.camelCase)

def logNotes (notes : List Diagnostic) : Act Unit :=
  notes.forM fun d => Act.log (if d.level = .info then .info else .warning) d.message

def freeze (d : Draft) : Act Config := do
  d.remarks.forM fun (numbers, notes) =>
    if numbers.all Text.isWritable then logNotes notes else throw (.number .unwritable)
  return d.filled

def layers (file overrides : Draft) : Draft := (Draft.defaults.mergeWith file).mergeWith overrides

def isOpen (s : Option Text) : Bool := (s.getD []).isEmpty

def withLicense (d : Draft) (license : Points) : Act Draft :=
  match license.text? with
  | some license => pure { d with spdxLicense := some license }
  | none => throw .unpaired

section
variable [Limits] [Toml.Library]

/-- The configuration that counts: of the file at `path`, or of the nearest one from `start` on. The
license of the project and the address that git knows fill the gaps. -/
def load (path : Option Path) (start : Path) (overrides : Draft) (usesGit : Bool) : Act Config := do
  let base ← Act.resolve start
  let found ← match path with
    | some p => read p true
    | none => discover base
  let file ← match found with
    | some f => f.draft
    | none => pure {}
  logNotes file.diagnostics
  let base := match found with
    | some f => f.path.parent
    | none => base
  let d := layers file overrides
  let d ←
    if isOpen d.spdxLicense then do
      match (found.bind (·.license)) with
      | some license => withLicense d license
      | none =>
        match ← detectLicense base with
        | some license => withLicense d license
        | none => pure d
    else pure d
  let d ←
    if isOpen d.maintainerEmail && usesGit then do
      match ← Git.setting "user.email" base with
      | some (c :: email) => pure { d with maintainerEmail := some (c :: email) }
      | _ => pure d
    else pure d
  freeze d

/-- Adds a table to a TOML file and tells whether it was not there before. -/
def addSection (p : Path) (path : List Text) (values : List (Text × Toml.Content)) : Act Bool := do
  let text ← if ← reading p (Act.isThere p) then readText p else pure []
  let d ← Act.ofExcept (tomlFault p) (Toml.Library.parse text)
  match Toml.Document.add d path values with
  | .error .present => return false
  | .error (.notTable key) => throw (.config (.notTable p.text key))
  | .error (.foreign e) => throw (.foreign e)
  | .ok d =>
    let text ← Act.ofExcept .foreign (Toml.Library.text d)
    match ← Act.attempt (Act.writePoints p text) with
    | .ok () => return true
    | .error (.file e) => throw (.config (.unwritable p.text e))
    | .error e => throw e

end

def sectionPath (s : Text) : List Text := (Text.splitOn '.' s).filter (!·.isEmpty)

end Masthead.Config
