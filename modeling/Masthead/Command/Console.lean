import Masthead.Command.Ending
import Masthead.Config.Discovery

/-! What all commands share: the terminal, and the configuration they work under. -/

namespace Masthead.Command

structure Console where
  color : Bool
  verbosity : Int
deriving DecidableEq, Repr

namespace Console
variable [CommandLine]

def shown (c : Console) (s : Text) : Text := if c.color then s else CommandLine.plain s

def write (c : Console) (s : Text) : Act Unit := Act.printOutput (c.shown s)

def say (c : Console) (s : Text) : Act Unit := c.write (s ++ ['\n'])

def warn (c : Console) (s : Text) : Act Unit :=
  Act.printError (c.shown (CommandLine.style [.yellow] s ++ ['\n']))

def complain (c : Console) (s : Text) : Act Unit :=
  Act.printError (c.shown (CommandLine.style [.brightRed] s ++ ['\n']))

def styled (c : Console) (paints : List Paint) (s : Text) : Text :=
  if c.color then CommandLine.style paints s else s

def confirm (question : Text) : Run Bool := do
  let w ← get
  let reply := CommandLine.confirm question w.input
  set { w with output := w.output ++ reply.shown, input := reply.rest }
  match reply.answer with
  | .ok agreed => return agreed
  | .error said => Run.stop (.aborted said)

end Console

structure Choice where
  path : Option Text := none
  includes : List Text := []
  excludes : List Text := []
deriving DecidableEq, Repr

def loadConfig [Limits] [Toml.Library] [Painter] [CommandLine] (c : Console) (choice : Choice)
    (start : Path) : Run Config := do
  let overrides : Draft := {
    includes := if choice.includes.isEmpty then none else some choice.includes
    excludes := if choice.excludes.isEmpty then none else some choice.excludes }
  let path := match choice.path with
    | some (x :: p) => some (Path.ofText (x :: p))
    | _ => none
  let config ← Run.configured (Config.load path start overrides true)
  config.diagnostics.forM fun d =>
    if d.level = .info ∧ c.verbosity < 1 then pure () else c.warn (d.render false)
  let n := Diagnostic.count config.diagnostics
  if 0 < n.total ∧ 0 < c.verbosity then
    c.warn ("Configuration: " ++ Text.ofNat n.warnings ++ " warning(s), " ++ Text.ofNat n.infos ++
      " info message(s)")
  return config

def here : Path := ⟨[], []⟩

def workingDirectory : Act Path := return Act.ofPlace (← get).cwd

end Masthead.Command
