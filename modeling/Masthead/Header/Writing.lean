import Masthead.Header
import Masthead.Layout

/-! Writing headers: the lines of a new header, and how a header is put into a text. -/

namespace Masthead.Header

def yearText (first : Int) (last : Option Int) : Text :=
  match last with
  | none => Text.ofInt first
  | some last =>
    if last = first then Text.ofInt first else Text.ofInt first ++ "-" ++ Text.ofInt last

def creditColumns (c : Config) (years name email : Text) : List Column :=
  let start :=
    if years.isEmpty then c.commentPrefix else c.commentPrefix ++ " Copyright (c) " ++ years
  [⟨start, 0⟩, ⟨name, c.nameColumn⟩, ⟨email, c.emailColumn⟩]

def creditLine (c : Config) (years name email : Text) : Text :=
  Layout.line (creditColumns c years name email)

def licenseColumns (c : Config) : List Column :=
  ⟨c.commentPrefix ++ " SPDX-License-Identifier: " ++ c.spdxLicense, 0⟩ ::
    ((if c.licenseUrl.isEmpty then [] else [⟨c.licenseUrl, c.licenseUrlColumn⟩]) ++
      (if c.maintainerEmail.isEmpty then [] else [⟨c.maintainerEmail, c.maintainerColumn⟩]))

def licenseLine (c : Config) : Text := Layout.line (licenseColumns c)

def separatorLine (c : Config) : Text :=
  Layout.separator c.width c.separatorChar c.commentPrefix

def credited (c : Config) (years : Text) : List Contributor → List (List Column)
  | [] => []
  | first :: others =>
    creditColumns c years first.name first.email ::
      others.map fun p => creditColumns c [] p.name p.email

def columns (c : Config) (people : List Contributor) (first : Int) (last : Option Int) :
    List (List Column) :=
  credited c (yearText first last) (people.take c.maxContributors) ++ [licenseColumns c]

def render (c : Config) (people : List Contributor) (first : Int) (last : Option Int) : List Text :=
  separatorLine c :: (columns c people first last).map Layout.line ++ [separatorLine c]

/-- A header crediting the first contributors, as many as the configuration allows. -/
def generate (c : Config) (people : List Contributor) (first : Int) (last : Option Int) : Text :=
  Text.unlines (render c people first last)

def withUser (people : List Contributor) (user : Option Contributor) : List Contributor :=
  match user with
  | none => people
  | some p => if Masthead.credits people p.email then people else people ++ [p]

/-- The last year, moved forward to `year` but never back. -/
def lastYear (h : Header) (year : Option Int) : Int :=
  match year with
  | none => h.yearEnd
  | some year => max h.yearEnd year

def update (h : Header) (c : Config) (user : Option Contributor) (year : Option Int) : Text :=
  generate c (withUser h.contributors user) h.yearStart (some (h.lastYear year))

/-- Puts `new` in the place of the old header and keeps all lines below it, the first of them blank.
Without an old header, `new` goes before the first character that is not blank. -/
def replace (content new : Text) (old : Option Header) : Text :=
  match old with
  | some h =>
    let below := (Text.lines content).drop h.endLine
    let gap : Text := match below with
      | line :: _ => if (Text.strip line).isEmpty then [] else ['\n']
      | [] => ['\n']
    new ++ ['\n'] ++ gap ++ Text.unlines below
  | none => new ++ ['\n', '\n'] ++ Text.stripLeft content

end Masthead.Header
