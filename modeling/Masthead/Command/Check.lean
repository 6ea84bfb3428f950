import Masthead.Check
import Masthead.Command.Console
import Masthead.Discovery
import Masthead.Json.Printer

/-! The command that checks headers. -/

namespace Masthead.Command.Check
variable [Limits] [Toml.Library] [Painter] [CommandLine]

def tell (c : Console) (r : Masthead.Check.Result) : Act Unit := do
  if r.isValid then
    if 0 ≤ c.verbosity then c.say (c.styled [.green] "[ok]" ++ " " ++ r.path)
  else
    c.say (c.styled [.red, .bold] "[fail]" ++ " " ++ r.path)
    r.problems.forM fun p => c.say ("  - " ++ p.message)

def tellAll (c : Console) (rs : List Masthead.Check.Result) : Act Unit := do
  rs.forM (tell c)
  c.say []
  c.say ("Checked " ++ Text.ofNat rs.length ++ " file(s)")
  c.say ("  Passed: " ++ Text.ofNat (Masthead.Check.passed rs))
  c.say ("  Failed: " ++ Text.ofNat (rs.length - Masthead.Check.passed rs))

def run (c : Console) (choice : Choice) (format : Format) (paths : List Text) : Run Unit := do
  let config ← loadConfig c choice here
  let files ← Discovery.discover paths config.includes config.excludes here
  if format = .human ∧ 0 < c.verbosity then
    c.say ("Found " ++ Terminal.plural files.length "file" ++ " to check")
  let results ← Masthead.Check.files config (← get).year (← workingDirectory) files
  match format with
  | .json => c.say (Json.render (.indented 2) (Masthead.Check.report results))
  | .human => tellAll c results
  if Masthead.Check.passed results < results.length then Run.stop (.exit failure)

end Masthead.Command.Check
