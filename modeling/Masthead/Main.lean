import Masthead.Backend.CommandLine
import Masthead.Backend.Limits
import Masthead.Backend.Toml.Library
import Masthead.Command
import Masthead.Workspace.Change
import Std.Time.Format

/-! The program on real files. It reads what is below the directory it is started in and below the
paths among its arguments, with the configuration files above, runs the command on them, and writes
the files that have changed. No other program is started, so git counts as unavailable. -/

namespace Masthead.Main

/-- What is at a path. A link to a file is taken as that file, a link to a directory stays a link,
and the data of version control is left out. -/
partial def treeAt? (path : String) : IO (Option Tree) := do
  let .ok target ← (IO.FS.realPath path).toBaseIO | return none
  match (← target.metadata).type with
  | .file =>
    let .ok bytes ← (IO.FS.readBinFile target).toBaseIO | return none
    return some (.file bytes.toList false)
  | .dir =>
    let entries ← (← target.readDir).toList.filterMapM fun entry => do
      let name := entry.fileName.toList
      if Discovery.skippedNames.contains name then return some (name, Tree.dir [])
      match ← (IO.FS.realPath entry.path).toBaseIO with
      | .error _ => return none
      | .ok inner =>
        if (← inner.isDir) && inner != entry.path then
          return some (name, Tree.link inner.toString.toList)
        else return (← treeAt? entry.path.toString).map fun t => (name, t)
    return some (.dir entries)
  | _ => return none

def reading (w : Workspace) (path : String) : IO Workspace := do
  let .ok target ← (IO.FS.realPath path).toBaseIO | return w
  let place := Tree.namesOf target.toString.toList
  if (w.tree.at? place).isSome then return w
  match ← treeAt? path with
  | some t => return (Act.plant place t w).2
  | none => return w

def sourcesAbove (place : Tree.Place) : List String :=
  (Config.upwards place).flatMap fun directory =>
    Config.sourceNames.map fun name => String.ofList (directory.child name).text

def surrounding? (name : String) : IO (Option Text) := return (← IO.getEnv name).map String.toList

/-- The workspace that a run with these arguments starts from. Only the command that sets a project
up asks questions, so that no other waits for input. -/
def workspace (arguments : List String) : IO Workspace := do
  let here := (← IO.currentDir).toString
  let place := Tree.namesOf here.toList
  let asks := arguments.contains Command.Verb.init.name
  let input ← if asks then (← IO.getStdin).readToEnd else pure ""
  let w : Workspace := {
    tree := .dir []
    cwd := place
    year := (← Std.Time.PlainDate.now).year.toInt
    logLevel := ← surrounding? "ANTE_LOG_LEVEL"
    surroundings := {
      forceColor := ← surrounding? "FORCE_COLOR"
      noColor := ← surrounding? "NO_COLOR"
      isTerminal := ← (← IO.getStdout).isTty }
    git := fun _ _ => .unavailable
    input := input.toList }
  ([here] ++ arguments ++ sourcesAbove place).foldlM reading w

def store (t : Tree) : Tree.Change → IO Unit
  | .written place bytes => do
    let path := String.ofList (Act.ofPlace place).text
    IO.FS.createDirAll (String.ofList (Act.ofPlace place.dropLast).text)
    IO.FS.writeBinFile path ⟨bytes.toArray⟩
    if let some (.file _ true) := t.at? place then
      let all : IO.AccessRight := { read := true, write := true, execution := true }
      let others : IO.AccessRight := { read := true, execution := true }
      IO.setAccessRights path { user := all, group := others, other := others }
  | .removed place => IO.FS.removeFile (String.ofList (Act.ofPlace place).text)

end Masthead.Main

open scoped Masthead.Backend in
def main (arguments : List String) : IO UInt32 := do
  let before ← Masthead.Main.workspace arguments
  let (ended, after) := Masthead.Command.run (arguments.map String.toList) before
  (before.tree.changes after.tree).forM (Masthead.Main.store after.tree)
  IO.print (String.ofList after.output)
  IO.eprint (String.ofList (after.errors.flatMap (·.shown)))
  match ended with
  | .ok ⟨code, none⟩ => return UInt32.ofNat code
  | .ok ⟨code, some fault⟩ => do
    IO.eprintln (String.ofList fault.message)
    return UInt32.ofNat code
  | .error fault => do
    IO.eprintln (String.ofList fault.message)
    return 1
