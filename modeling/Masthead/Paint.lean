import Masthead.Text.Basic

/-! Colours and weights of what is shown on a terminal. How they are put on is left to others. -/

namespace Masthead

inductive Paint where
  | red
  | green
  | yellow
  | blue
  | cyan
  | gray
  | brightRed
  | bold
  | dim
  | underline
deriving DecidableEq, Repr

class Painter where
  paint : List Paint → Text → Text

end Masthead
