import Masthead.Text.Basic

/-! Lines with fragments at fixed columns. -/

namespace Masthead

structure Column where
  content : Text
  position : Int
deriving DecidableEq, Repr

namespace Layout

/-- How many spaces stand between a line of `width` characters and a fragment for `position`: enough
to reach the position, or one where the line is already beyond it. -/
def gap (width : Nat) (position : Int) : Nat :=
  if (width : Int) < position then (position - width).toNat
  else if width = 0 then 0
  else 1

def place (width : Nat) : List Column → Text
  | [] => []
  | c :: columns =>
    let g := gap width c.position
    Text.spaces g ++ c.content ++ place (width + g + c.content.length) columns

def sorted (columns : List Column) : List Column :=
  columns.mergeSort fun a b => decide (a.position ≤ b.position)

/-- One line with each fragment at its column, or one space behind the fragment before it. -/
def line (columns : List Column) : Text := place 0 (sorted columns)

def separator (width : Int) (fill start : Text) : Text :=
  if fill.isEmpty then start
  else start ++ (List.replicate (width - start.length).toNat fill).flatten

def padToColumn (s : Text) (column : Int) : Text :=
  if column ≤ s.length then s ++ [' '] else s ++ Text.spaces (column - s.length).toNat

def trimToWidth (s : Text) (width : Int) : Text :=
  if s.length ≤ width then s else Text.takeSigned width s

def adjustToWidth (s : Text) (width : Int) : Text :=
  if width < s.length then Text.takeSigned width s
  else s ++ Text.spaces (width - s.length).toNat

end Layout
end Masthead
