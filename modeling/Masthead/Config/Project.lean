import Masthead.Config.Discovery
import Masthead.Config.Starter

/-! Giving a project its configuration. -/

namespace Masthead.Config
variable [Limits] [Toml.Library]

def existing (project : Path) : Act (Option Path) := do
  return (← firstIn project sourceNames).map (·.path)

/-- Writes a configuration for a project that has none: into its project file, or into a file of its
own. The result is the file that holds the configuration, and whether it was written. -/
def writeStarter (project : Path) : Act (Path × Bool) := do
  match ← existing project with
  | some p => return (p, false)
  | none =>
    let values := starter (← detectLicense project)
    let projectFile := project.child projectFileName
    if ← Act.isFile projectFile then
      return (projectFile, ← addSection projectFile ["tool".toList, sectionName] values)
    else
      let own := project.child fileName
      return (own, ← addSection own [] values)

end Masthead.Config
