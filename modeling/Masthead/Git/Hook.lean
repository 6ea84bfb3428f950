import Masthead.Git
import Masthead.Git.HookScript

/-! Installing and removing the script that runs before a commit. Scripts of others are left
alone. -/

namespace Masthead.Git.Hook

def directoryName : Text := ".githooks"

def fileName : Text := "pre-commit"

def path (project : Path) : Path := (project.child directoryName).child fileName

def isOurs (p : Path) : Act Bool := do
  match ← Act.attempt (Act.readText p) with
  | .ok text => return Text.contains text hookMarker
  | .error (.file _) => return false
  | .error (.encoding _) => return false
  | .error e => throw e

def settingName : Text := "core.hooksPath"

/-- Writes the script and makes git use it. Somebody else's script is only replaced by force. -/
def install (project : Path) (configPath : Option Text) (force : Bool) : Act Path := do
  let p := path project
  if (← Act.isThere p) && !force && !(← isOurs p) then throw (.git (.foreignHook p.text))
  else
    Act.makeDir p.parent
    Act.writeText p (hookScript configPath)
    Act.makeExecutable p
    Act.log .info ("Wrote pre-commit hook " ++ p.text)
    let _ ← runOrFail ["config", settingName, directoryName] project
    Act.log .info ("Set core.hooksPath to " ++ directoryName)
    return p

/-- Removes our script, and tells whether there was one; git no longer looks for scripts where it
was. -/
def uninstall (project : Path) : Act Bool := do
  let p := path project
  let removes := (← Act.isThere p) && (← isOurs p)
  if removes then
    Act.removeFile p
    Act.log .info ("Removed pre-commit hook " ++ p.text)
    Act.removeEmptyDir p.parent
  if (← setting settingName project) = some directoryName then
    let _ ← run ["config", "--unset", settingName] project
    Act.log .info "Unset core.hooksPath"
  return removes

end Masthead.Git.Hook
