import Masthead.Command.Add
import Masthead.Command.Check
import Masthead.Command.Fix
import Masthead.Command.Init
import Masthead.Command.Version

/-! The command line: the options of the program, then a command with its own arguments. -/

namespace Masthead.Command
variable [CommandLine]

def parsed (i : Interface) (arguments : List Text) : Run Arguments := do
  let w ← get
  match CommandLine.take i w.tree w.cwd arguments with
  | .ok a => return a
  | .error r => Run.stop (.refused r)

/-! Running. -/

def choice (a : Arguments) : Choice :=
  ⟨a.value? "--config", a.values "--include", a.values "--exclude"⟩

def Verb.run [Limits] [Toml.Library] [Painter] (c : Console) (v : Verb) (arguments : List Text) :
    Run Unit := do
  let a ← parsed v.interface arguments
  match v with
  | .version => Version.run c
  | .init =>
    Init.run c ((a.value? "--dir").map Path.ofText) (a.has "--skip-hooks") (a.has "--yes")
  | .check =>
    Check.run c (choice a) (((a.value? "--format").bind Format.ofName?).getD .human) a.rest
  | .fix => Fix.run c (choice a) ⟨a.has "--dry-run", a.has "--diff", a.has "--staged"⟩ a.rest
  | .add => Add.run c (choice a) (a.has "--force") (Path.ofText (a.rest.headD []))

def console (mode : Option Terminal.ColorMode) (a : Arguments) : Run Console := do
  match Terminal.verbosity (a.count "--verbose") (a.count "--quiet") with
  | .error e => Run.fail (.misuse e)
  | .ok verbosity =>
    let w ← get
    match Log.levelOf? (w.logLevel.getD []) with
    | .error e => Run.stop (.fault (.number e))
    | .ok level =>
      set { w with threshold := level.getD Log.defaultLevel }
      let mode := if a.has "--no-color" then some .never else mode
      return ⟨Terminal.usesColor mode none w.surroundings, verbosity⟩

structure Errand where
  console : Console
  verb : Option Verb
  arguments : List Text
deriving DecidableEq, Repr

def errand (arguments : List Text) : Run Errand := do
  let a ← parsed programInterface arguments
  let mode := (a.value? "--color").bind Terminal.ColorMode.ofName?
  return ⟨← console mode a, a.rest.head?.bind Verb.ofName?, a.rest.tail⟩

def Errand.run [Limits] [Toml.Library] [Painter] (e : Errand) : Run Unit := do
  match e.verb with
  | some v => v.run e.console e.arguments
  | none =>
    e.console.say "Hint: use 'ante check [PATHS...]' to validate headers."
    e.console.say []
    e.console.say (CommandLine.help programInterface)

/-- How the program has ended: its exit code, and a fault that no command reckons with. -/
structure Ended where
  code : Nat
  fault : Option Fault := none
deriving DecidableEq, Repr

def finish (c : Console) : Stop → Act Ended
  | .exit code => return { code }
  | .failed e => do
    Act.printError (c.shown ("Error: " ++ e.message ++ "\n"))
    return { code := e.exitCode }
  | .refused (.usage said) => do
    Act.printError said
    return { code := badUsage }
  | .refused (.help shown) => do
    Act.printOutput shown
    return { code := success }
  | .refused (.fault e) => return { code := failure, fault := some e }
  | .aborted said => do
    Act.printError said
    return { code := failure }
  | .fault e => return { code := failure, fault := some e }

def run [Limits] [Toml.Library] [Painter] (arguments : List Text) : Act Ended := do
  match ← Run.outcome (errand arguments) with
  | .error s => finish ⟨false, 0⟩ s
  | .ok e =>
    match ← Run.outcome e.run with
    | .error s => finish e.console s
    | .ok () => return { code := success }

end Masthead.Command
