import Masthead.Command.Console
import Masthead.Header.Excess

/-! The command that adds a header to one file. -/

namespace Masthead.Command.Add
variable [Limits] [Toml.Library] [Painter] [CommandLine]

def run (c : Console) (choice : Choice) (force : Bool) (p : Path) : Run Unit := do
  let config ← loadConfig c choice p.parent
  let source ← Run.withFile p.text (Act.readSource p)
  let fixer : Fixer := ⟨config, ← Git.user p.parent, (← get).year⟩
  let body := (Source.splitPreamble source.text).2
  if Header.isPresent config.dialect body && !force then
    c.complain (p.text ++ " already has a copyright header (use --force to replace it)")
    Run.stop (.exit failure)
  let past ← Git.past config p
  Act.demandRoom (fixer.createExcess? past source.text)
  let text := fixer.create past source.text
  if text = source.text then c.say ("Unchanged: " ++ p.text)
  else
    Run.withFile p.text (Act.writeSource p text source.newline)
    c.say ("Added header to " ++ p.text)

end Masthead.Command.Add
