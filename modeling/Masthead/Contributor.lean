import Masthead.Text.Case

/-! People credited in headers. The address, without regard to case, says who somebody is. -/

namespace Masthead

structure Contributor where
  name : Text
  email : Text
deriving DecidableEq, Repr

namespace Contributor

def key (c : Contributor) : Text := Text.lower c.email

def shown (c : Contributor) : Text := c.name ++ " <" ++ c.email ++ ">"

end Contributor

def credits (people : List Contributor) (email : Text) : Bool :=
  people.any (·.key = Text.lower email)

/-- The first contributor of each key that is not among `seen`. -/
def distinctFrom (seen : List Text) : List Contributor → List Contributor
  | [] => []
  | c :: people =>
    if c.key ∈ seen then distinctFrom seen people
    else c :: distinctFrom (c.key :: seen) people

def merge (existing added : List Contributor) : List Contributor :=
  distinctFrom [] (existing ++ added)

inductive Selection where
  | commits
  | lines
  | recent
  | manual
deriving DecidableEq, Repr

namespace Selection

def name : Selection → String
  | .commits => "commits"
  | .lines => "lines"
  | .recent => "recent"
  | .manual => "manual"

def all : List Selection := [.commits, .lines, .recent, .manual]

def ofName? (s : Text) : Option Selection :=
  all.find? fun sel => sel.name.toList = Text.lower (Text.strip s)

end Selection
end Masthead
