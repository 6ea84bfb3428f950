import Masthead.Paint
import Mathlib.Data.List.Basic

/-! Painted text. The sequences that set a style are made of few characters, and painting a text
leaves all its other characters as they are, one behind the other. -/

namespace Masthead.Painter

def isShown (c : Char) : Bool := !c.isDigit && c ∉ ['\x1b', '[', ';', 'm']

variable [Painter]

/-- Painting puts in control sequences, and changes nothing else. -/
def OnlyMarks : Prop := ∀ paints s, (paint paints s).filter isShown = s.filter isShown

theorem OnlyMarks.count_paint (h : OnlyMarks) {c : Char} (hc : isShown c = true)
    (paints : List Paint) (s : Text) :
    (paint paints s).count c = s.count c := by
  rw [← List.count_filter hc, h, List.count_filter hc]

end Masthead.Painter
