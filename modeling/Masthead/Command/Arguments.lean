import Masthead.Paint
import Masthead.Workspace

/-! The arguments of commands. A command declares its options and its other arguments; a parser of
command lines takes them apart, and also asks questions and styles what is shown. -/

namespace Masthead.Command

inductive Accepted where
  | anything
  | oneOf (names : List String)
  | path
  | file
  | directory
  | notDirectory
deriving DecidableEq, Repr

structure Flag where
  long : Text
  short : Option Char := none
  value : Option Text := none
  accepted : Accepted := .anything
  usual : Option Text := none
  about : Text
deriving DecidableEq, Repr

def Flag.takesValue (f : Flag) : Bool := f.value.isSome

inductive Operands where
  | none
  | one (name : Text) (accepted : Accepted)
  | many (name : Text) (accepted : Accepted)
  | command (names : List (String × Text))
deriving DecidableEq, Repr

/-- What a command declares, or the program itself if there is no name. -/
structure Interface where
  name : Option Text := none
  about : Text
  epilog : Text := []
  flags : List Flag
  operands : Operands := .none
deriving DecidableEq, Repr

/-- Arguments taken apart: the options in order, each by its long name and with its value, and the
rest. -/
structure Arguments where
  given : List (Text × Text) := []
  rest : List Text := []
deriving DecidableEq, Repr

namespace Arguments

def addGiven (given : List (Text × Text)) (a : Arguments) : Arguments :=
  { a with given := given ++ a.given }

def count (a : Arguments) (long : Text) : Nat := a.given.countP (·.1 = long)

def has (a : Arguments) (long : Text) : Bool := a.given.any (·.1 = long)

def values (a : Arguments) (long : Text) : List Text :=
  (a.given.filter (·.1 = long)).map (·.2)

def value? (a : Arguments) (long : Text) : Option Text := (a.values long).getLast?

end Arguments

inductive Refusal where
  | usage (said : Text)
  | help (shown : Text)
  | fault (e : Fault)
deriving DecidableEq, Repr

structure Reply where
  shown : Text
  rest : Text
  answer : Except Text Bool

end Masthead.Command

namespace Masthead

class CommandLine where
  take : Command.Interface → Tree → (cwd : Tree.Place) → List Text →
    Except Command.Refusal Command.Arguments
  help : Command.Interface → Text
  confirm : (question input : Text) → Command.Reply
  style : List Paint → Text → Text
  plain : Text → Text

end Masthead
