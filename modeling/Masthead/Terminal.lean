import Masthead.Text.Case
import Masthead.Text.Digit

/-! What a command says on the terminal: how much, and in which colours. -/

namespace Masthead.Terminal

inductive Misuse where
  | verboseAndQuiet
  | stagedOutsideRepository
  | stagedWithPaths
deriving DecidableEq, Repr

def Misuse.message : Misuse → Text
  | .verboseAndQuiet => "The '--verbose' and '--quiet' options are mutually exclusive."
  | .stagedOutsideRepository => "--staged requires a git repository"
  | .stagedWithPaths => "PATHS cannot be combined with --staged"

/-- How much is said: summaries only below zero, and more and more above it. -/
def verbosity (verbose quiet : Int) : Except Misuse Int :=
  if 0 < verbose ∧ 0 < quiet then .error .verboseAndQuiet
  else if 0 < quiet then .ok (-1)
  else .ok (min verbose 2)

inductive ColorMode where
  | auto
  | always
  | never
deriving DecidableEq, Repr

def ColorMode.all : List ColorMode := [.auto, .always, .never]

def ColorMode.name : ColorMode → String
  | .auto => "auto"
  | .always => "always"
  | .never => "never"

def ColorMode.ofName? (s : Text) : Option ColorMode := ColorMode.all.find? (·.name.toList = s)

structure Surroundings where
  forceColor : Option Text := none
  noColor : Option Text := none
  isTerminal : Bool := false
deriving DecidableEq, Repr

/-- Whether output is coloured. Reports for machines never are; then what was asked for counts, then
the settings of the surroundings, and last whether somebody is looking. -/
def usesColor (mode : Option ColorMode) (format : Option Text) (s : Surroundings) : Bool :=
  if Text.lower (format.getD []) = "json".toList then false
  else match mode with
    | some .always => true
    | some .never => false
    | _ =>
      if s.forceColor.any fun v => v ≠ [] ∧ v ≠ ['0'] then true
      else if s.noColor.isSome then false
      else s.isTerminal

def plural (count : Int) (noun : Text) : Text :=
  Text.ofInt count ++ " " ++ noun ++ (if count = 1 then [] else ['s'])

end Masthead.Terminal
