import Masthead.Fix
import Masthead.Layout.Excess

/-! Headers for which there is no room. -/

namespace Masthead
variable [Limits]

namespace Header

def excess? (c : Config) (people : List Contributor) (first : Int) (last : Option Int) :
    Option Excess :=
  match Layout.separatorExcess? c.width c.separatorChar c.commentPrefix with
  | some e => some e
  | none => (columns c people first last).findSome? Layout.lineExcess?

def updateExcess? (h : Header) (c : Config) (user : Option Contributor) (year : Option Int) :
    Option Excess :=
  excess? c (withUser h.contributors user) h.yearStart (some (h.lastYear year))

end Header

namespace Fixer

def createExcess? (f : Fixer) (past : Past) (content : Text) : Option Excess :=
  Header.excess? f.config (f.newPeople past (f.existing content)) (f.newYears past).1
    (some (f.newYears past).2)

def excess? (f : Fixer) (past : Past) (content : Text) : Option Excess :=
  match f.current? content with
  | none => f.createExcess? past content
  | some h => h.updateExcess? f.config f.user (some f.year)

end Fixer
end Masthead
