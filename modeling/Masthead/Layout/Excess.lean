import Masthead.Layout
import Masthead.Limits

/-! Limits of lines. A line for which there is no room is not laid out at all. The functions that
lay lines out know no limit: they say which line there is where there is room for it, and what
reaches files and terminals asks for the room first. -/

namespace Masthead

inductive Excess where
  | count
  | length
  | memory
deriving DecidableEq, Repr

def Excess.message : Excess → Text
  | .count => "cannot fit 'int' into an index-sized integer"
  | .length => "repeated string is too long"
  | .memory => []

namespace Layout

def countLimit : Nat := 9223372036854775807

variable [Limits]

def excess? (n : Int) (length : Nat) : Option Excess :=
  if countLimit < n then some .count
  else if countLimit < n * length then some .length
  else if Limits.memory < n * length then some .memory
  else none

def placeExcess? (width : Nat) : List Column → Option Excess
  | [] => none
  | c :: columns =>
    match excess? (c.position - width) 1 with
    | some e => some e
    | none => placeExcess? (width + gap width c.position + c.content.length) columns

def lineExcess? (columns : List Column) : Option Excess := placeExcess? 0 (sorted columns)

def separatorExcess? (width : Int) (fill start : Text) : Option Excess :=
  excess? (width - start.length) fill.length

def fillExcess? (s : Text) (width : Int) : Option Excess := excess? (width - s.length) 1

end Layout
end Masthead
