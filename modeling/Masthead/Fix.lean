import Masthead.Header.Writing
import Masthead.Source

/-! Fixing the header of a text: a missing header is written, one without years is written anew, and
any other is brought up to date. -/

namespace Masthead

/-- What the history of a file tells: its authors in the order of their rank, and the years of its
first and its latest commit. -/
structure Past where
  ranked : List Contributor := []
  years : Option (Int × Int) := none
deriving DecidableEq, Repr

namespace Config

def question? (c : Config) : Option (Selection × Nat) :=
  match c.selection with
  | .manual => none
  | s => some (s, c.maxContributors)

def choose (c : Config) (ranked : List Contributor) : List Contributor :=
  (match c.selection with
    | .manual => merge c.manualContributors []
    | _ => ranked).take c.maxContributors

end Config

structure Fixer where
  config : Config
  user : Option Contributor := none
  year : Int
deriving DecidableEq, Repr

namespace Fix

inductive Action where
  | created
  | updated
  | unchanged
  | skipped
deriving DecidableEq, Repr

def Action.name : Action → String
  | .created => "created"
  | .updated => "updated"
  | .unchanged => "unchanged"
  | .skipped => "skipped"

def Action.modifies : Action → Bool
  | .created => true
  | .updated => true
  | _ => false

inductive Change where
  | create
  | extendYears (first last : Int)
  | credit (who : Contributor)
  | layOut
deriving DecidableEq, Repr

def Change.message : Change → Text
  | .create => "Created new copyright header"
  | .extendYears first last => "Update year to " ++ Header.yearText first (some last)
  | .credit who => "Add contributor: " ++ who.name
  | .layOut => "Regenerate header layout"

structure Outcome where
  text : Text
  action : Action
  changes : List Change
deriving DecidableEq, Repr

def Outcome.details (o : Outcome) : Text := Text.join "; ".toList (o.changes.map Change.message)

end Fix

namespace Fixer

def newYears (f : Fixer) (past : Past) : Int × Int :=
  (min ((past.years.map (·.1)).getD f.year) f.year, f.year)

def newPeople (f : Fixer) (past : Past) (existing : List Contributor) : List Contributor :=
  merge existing (f.config.choose past.ranked ++ f.user.toList)

def newHeader (f : Fixer) (past : Past) (existing : List Contributor) : Text :=
  Header.generate f.config (f.newPeople past existing) (f.newYears past).1
    (some (f.newYears past).2)

def existing (f : Fixer) (content : Text) : List Contributor :=
  ((Header.parse? f.config.dialect (Source.splitPreamble content).2).map (·.contributors)).getD []

def create (f : Fixer) (past : Past) (content : Text) : Text :=
  let (preamble, body) := Source.splitPreamble content
  let old := Header.parse? f.config.dialect body
  Source.joinPreamble preamble (Header.replace body (f.newHeader past (f.existing content)) old)

/-- The header to be brought up to date; there is none when a new one has to be written. -/
def current? (f : Fixer) (content : Text) : Option Header :=
  (Header.parse? f.config.dialect (Source.splitPreamble content).2).filter (·.yearStart ≠ 0)

def changes (f : Fixer) (h : Header) : List Fix.Change :=
  let years := if h.yearEnd < f.year then [.extendYears h.yearStart f.year] else []
  let credit := match f.user with
    | none => []
    | some p => if credits h.contributors p.email then [] else [.credit p]
  if (years ++ credit).isEmpty then [.layOut] else years ++ credit

/-- Fixes the header of a text. The past counts only for a new header. -/
def fix (f : Fixer) (past : Past) (content : Text) : Fix.Outcome :=
  match f.current? content with
  | none => ⟨f.create past content, .created, [.create]⟩
  | some h =>
    let header := h.update f.config f.user (some f.year)
    if header = h.raw then ⟨content, .unchanged, []⟩
    else
      let (preamble, body) := Source.splitPreamble content
      ⟨Source.joinPreamble preamble (Header.replace body header (some h)), .updated, f.changes h⟩

end Fixer
end Masthead
