import Masthead.Command.Console
import Masthead.Config.Project
import Masthead.Git.Hook

/-! The command that sets a project up. -/

namespace Masthead.Command.Init
variable [Limits] [Toml.Library] [CommandLine]

def installHook (c : Console) (project : Path) : Act Bool := do
  let warn (message : Text) : Act Bool := do
    c.warn ("  Warning: Failed to install git hooks: " ++ message)
    return false
  match ← Act.attempt (Git.Hook.install project none false) with
  | .ok _ =>
    c.say ("  Installed git hooks to " ++ Git.Hook.directoryName ++ "/")
    c.say ("  Configured git to use " ++ Git.Hook.directoryName ++ "/ as hooks path")
    return true
  | .error (.git e) => warn e.message
  | .error (.file e) => warn e.message
  | .error e => throw e

def question : Text :=
  "  Install the pre-commit hook into " ++ Git.Hook.directoryName ++ "/?"

def run (c : Console) (directory : Option Path) (skipsHooks assumesYes : Bool) : Run Unit := do
  let project ← Act.resolve (directory.getD here)
  c.say ("Initializing ante in " ++ project.text ++ "...")
  let (file, written) ← Run.configured (Config.writeStarter project)
  if written then c.say ("  Created ante configuration in " ++ file.text)
  else c.say ("  ante configuration already exists in " ++ file.text)
  let agreed ←
    if skipsHooks then pure false
    else if assumesYes then pure true
    else Console.confirm question
  let installed ←
    if agreed then installHook c project
    else do
      c.say "  Skipped git hook installation"
      pure false
  c.say []
  c.say "Done! ante is now configured."
  if installed then
    c.say []
    c.say "The pre-commit hook will automatically:"
    c.say "  - Add copyright headers to new files"
    c.say "  - Add you as a contributor when you modify files"
    c.say "  - Update year ranges when files change"

end Masthead.Command.Init
