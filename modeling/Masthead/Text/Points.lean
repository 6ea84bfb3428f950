import Masthead.Text.Quoted

/-! Texts that may hold half of a pair of UTF-16 units. No character stands for such a half, and no
file can be written with one. -/

namespace Masthead

namespace Text

inductive Point where
  | char (c : Char)
  | half (unit : Nat)
deriving DecidableEq, Repr

namespace Point

def char? : Point → Option Char
  | char c => some c
  | half _ => none

def isHalf : Point → Bool
  | char _ => false
  | half _ => true

end Point

/-- The unit `unit` at `position` is half of a pair, as are all `count` from there on. -/
structure HalfFault where
  unit : Nat
  position : Nat
  count : Nat
deriving DecidableEq, Repr

def HalfFault.message (f : HalfFault) : Text :=
  let place :=
    if f.count = 1 then
      "character '\\u".toList ++ hex 4 f.unit ++ "' in position " ++ ofNat f.position
    else
      "characters in position ".toList ++ ofNat f.position ++ "-" ++
        ofNat (f.position + f.count - 1)
  "'utf-8' codec can't encode " ++ place ++ ": surrogates not allowed"

end Text

abbrev Points := List Text.Point

namespace Points

def ofText (s : Text) : Points := s.map .char

def half? (s : Points) : Option Text.HalfFault :=
  match s.dropWhile (!·.isHalf) with
  | .half unit :: rest =>
    some ⟨unit, (s.takeWhile (!·.isHalf)).length, (rest.takeWhile (·.isHalf)).length + 1⟩
  | _ => none

def chars (s : Points) : Text := s.filterMap Text.Point.char?

def text? (s : Points) : Option Text := if s.half?.isNone then some s.chars else none

end Points
end Masthead
