import Masthead.Backend.Style
import Masthead.Command.Verb

/-! Help on commands, and what is said of arguments that are not understood. -/

namespace Masthead.Backend
open Command

inductive UsageFault where
  | unknownOption (name : Text)
  | valueMissing (name : Text)
  | valueNotTaken (name : Text)
  | badValue (name value : Text)
  | badPath (path : Text)
  | argumentMissing (name : Text)
  | unexpected (argument : Text)
  | unknownCommand (name : Text)
deriving DecidableEq, Repr

def UsageFault.message : UsageFault → Text
  | .unknownOption name => "No such option: " ++ name
  | .valueMissing name => "Option '" ++ name ++ "' requires an argument."
  | .valueNotTaken name => "Option '" ++ name ++ "' does not take a value."
  | .badValue name value => "Invalid value for '" ++ name ++ "': '" ++ value ++ "'"
  | .badPath path => "Invalid path: '" ++ path ++ "'"
  | .argumentMissing name => "Missing argument '" ++ name ++ "'."
  | .unexpected argument => "Got unexpected extra argument (" ++ argument ++ ")"
  | .unknownCommand name => "No such command '" ++ name ++ "'."

namespace Manual

def operandsShown : Operands → Text
  | .none => []
  | .one name _ => " " ++ name
  | .many name _ => " [" ++ name ++ "]..."
  | .command _ => " COMMAND [ARGS]..."

def usageLine (i : Interface) : Text :=
  let name := match i.name with
    | some name => ' ' :: name
    | none => []
  "Usage: ante" ++ name ++ " [OPTIONS]" ++ operandsShown i.operands ++ "\n"

def flagNames (f : Flag) : Text :=
  let short := match f.short with
    | some c => ['-', c, ',', ' ']
    | none => []
  let value := match f.value with
    | some v => ' ' :: v
    | none => []
  short ++ f.long ++ value

def rows (rs : List (Text × Text)) : Text :=
  let width := (rs.map (·.1.length)).foldl max 0
  rs.flatMap fun (left, right) =>
    "\n  " ++ left ++ Text.spaces (width - left.length) ++ "  " ++ right

def flagAbout (f : Flag) : Text :=
  match f.usual with
  | some v => f.about ++ "  [default: ".toList ++ v ++ [']']
  | none => f.about

def commandRows : Operands → Text
  | .command names => "\n\nCommands:" ++ rows (names.map fun n => (n.1.toList, n.2))
  | _ => []

def epilogShown (s : Text) : Text := if s.isEmpty then [] else '\n' :: '\n' :: Text.stripRight s

def help (i : Interface) : Text :=
  usageLine i ++ "\n  " ++ i.about ++ "\n\nOptions:" ++
    rows (i.flags.map fun f => (flagNames f, flagAbout f)) ++ commandRows i.operands ++
    epilogShown i.epilog

def refusal (i : Interface) (e : UsageFault) : Refusal :=
  .usage (usageLine i ++ "\nError: " ++ e.message ++ "\n")

end Manual
end Masthead.Backend
