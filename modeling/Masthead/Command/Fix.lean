import Masthead.Command.Console
import Masthead.Diff
import Masthead.Discovery
import Masthead.Fix.File

/-! The command that fixes headers. -/

namespace Masthead.Command.Fix

open Masthead.Fix (Action FileOutcome)

structure Mode where
  isDry : Bool := false
  showsDiff : Bool := false
  isStaged : Bool := false
deriving DecidableEq, Repr

def marker : Action → Char
  | .created => '+'
  | .updated => '~'
  | .skipped => '!'
  | .unchanged => ' '

variable [CommandLine]

def tell (c : Console) (m : Mode) (o : FileOutcome) : Act Unit := do
  if 0 < c.verbosity then
    c.say (marker o.action :: ' ' :: o.path)
    if !o.details.isEmpty then c.say ("  " ++ o.details)
  else if o.action.modifies && decide (0 ≤ c.verbosity) then
    c.say ((if m.isDry then "Would fix: ".toList else "Fixed: ".toList) ++ o.path)

def tellDiff [Painter] (c : Console) (m : Mode) (o : FileOutcome) : Act Unit := do
  match o.current with
  | some text =>
    if m.showsDiff && o.action.modifies then
      let lines := Diff.unified text (o.updated.getD []) o.path Diff.defaultContext
      c.write (Diff.render c.color lines)
  | none => pure ()

/-- What became of a file, and the exit code if it could not be written. -/
structure Step where
  outcome : FileOutcome
  code : Option Nat := none

def write (c : Console) (m : Mode) (p : Path) (o : FileOutcome) : Act Step := do
  match o.updated with
  | some updated =>
    if o.action.modifies && !m.isDry then
      match ← Act.attempt (Act.writeSource p updated o.newline) with
      | .ok () =>
        if m.isStaged then
          if !(← Git.stage p) then c.warn ("Warning: could not re-stage " ++ o.path)
        return { outcome := o }
      | .error (.file e) =>
        let trouble := Trouble.ofFault (.file e)
        Act.log .error ("Cannot write " ++ p.text ++ ": " ++ e.message)
        c.complain ("Error: " ++ trouble.message o.path)
        return { outcome := .skipped o.path (.file e), code := trouble.exitCode }
      | .error e => throw e
    else return { outcome := o }
  | none => return { outcome := o }

def step [Limits] [Painter] (c : Console) (m : Mode) (f : Fixer) (base : Path) (path : Text) :
    Act Step := do
  let p := base.join (Path.ofText path)
  let s ← write c m p (← Masthead.Fix.file f (Git.past f.config p) p path)
  tell c m s.outcome
  tellDiff c m s.outcome
  return s

def selection (m : Mode) (config : Config) (paths : List Text) : Run (Path × List Text) := do
  if m.isStaged then
    match ← Git.root here with
    | none => Run.fail (.misuse .stagedOutsideRepository)
    | some root =>
      let staged ← Git.staged Git.keptKinds root
      return (root, filterPaths staged config.includes config.excludes)
  else
    let files ← Discovery.discover paths config.includes config.excludes here
    return (← workingDirectory, files)

def countOf (a : Action) (steps : List Step) : Nat := steps.countP (·.outcome.action = a)

def tellCounts (c : Console) (steps : List Step) : Act Unit := do
  c.say []
  c.say ("Processed " ++ Text.ofNat steps.length ++ " file(s)")
  c.say ("  Created: " ++ Text.ofNat (countOf .created steps))
  c.say ("  Updated: " ++ Text.ofNat (countOf .updated steps))
  c.say ("  Unchanged: " ++ Text.ofNat (countOf .unchanged steps))
  c.say ("  Skipped: " ++ Text.ofNat (countOf .skipped steps))

/-- Fixes files, or all files here; a dry run tells by its exit code whether something would
change. -/
def run [Limits] [Toml.Library] [Painter] (c : Console) (choice : Choice) (m : Mode)
    (paths : List Text) : Run Unit := do
  if m.isStaged && !paths.isEmpty then Run.fail (.misuse .stagedWithPaths)
  let config ← loadConfig c choice here
  let (base, files) ← selection m config paths
  if 0 < c.verbosity then
    c.say ("Found " ++ Terminal.plural files.length "file" ++ " to process")
    if m.isDry then c.say "(dry run - no changes will be made)"
  let user ← Git.user base
  if user.isNone ∧ 0 < c.verbosity then c.warn "Warning: Could not determine git user"
  let fixer : Fixer := ⟨config, user, (← get).year⟩
  let steps ← (files.mapM (step c m fixer base) : Act (List Step))
  let changed := steps.countP (·.outcome.action.modifies)
  if 0 < c.verbosity ∨ 0 < changed then tellCounts c steps
  match steps.findSome? (·.code) with
  | some code => Run.stop (.exit code)
  | none => if m.isDry ∧ 0 < changed then Run.stop (.exit wouldChange)

end Masthead.Command.Fix
