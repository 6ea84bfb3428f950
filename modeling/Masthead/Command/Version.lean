import Masthead.Command.Console

/-! The command that tells the version. -/

namespace Masthead.Command.Version
variable [CommandLine]

def current : Text := "0.1.0"

def run (c : Console) : Run Unit := do
  let version := c.styled [.bold] current
  if 0 < c.verbosity then
    c.say (c.styled [.bold, .underline] "Ante version:")
    c.say ("    " ++ version)
  else c.say version

end Masthead.Command.Version
