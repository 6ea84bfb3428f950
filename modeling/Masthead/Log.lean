import Masthead.Paint
import Masthead.Text.Case
import Masthead.Text.Numeral

/-! Records of what the program does: how grave a record is, and how it is shown. -/

namespace Masthead.Log

def namedLevels : List (String × Nat) := [
  ("TRACE", 5), ("DEBUG", 10), ("INFO", 20), ("WARNING", 30), ("WARN", 30), ("ERROR", 40),
  ("CRITICAL", 50), ("FATAL", 50), ("NOTSET", 0)
]

def levelOf? (setting : Text) : Except Text.NumeralFault (Option Nat) := do
  let s := (Text.strip setting).map Text.capital
  match ← Text.numeral s with
  | some n => .ok (some n)
  | none => .ok ((namedLevels.find? (·.1.toList = s)).map (·.2))

def defaultLevel : Nat := 50

def paints (level : Int) : List Paint :=
  if 50 ≤ level then [.brightRed]
  else if 40 ≤ level then [.red]
  else if 30 ≤ level then [.yellow]
  else if 20 ≤ level then [.green]
  else if 10 ≤ level then [.gray]
  else if 5 ≤ level then [.blue]
  else [.dim, .red]

inductive Level where
  | info
  | warning
  | error
deriving DecidableEq, Repr

def Level.value : Level → Nat
  | .info => 20
  | .warning => 30
  | .error => 40

def Level.name : Level → String
  | .info => "INFO"
  | .warning => "WARNING"
  | .error => "ERROR"

inductive Entry where
  | said (s : Text)
  | record (level : Level) (message : Text)
deriving DecidableEq, Repr

variable [Painter]

def format (level : Int) (name message : Text) : Text :=
  Painter.paint (paints level) ("[" ++ name ++ "] " ++ message)

def Entry.shown : Entry → Text
  | said s => s
  | record level message => format level.value level.name message ++ "\n"

end Masthead.Log
