import Masthead.Header.Line

/-! Headers: the block of lines from a separator on the first line of a text to the next separator.
Lines in between that say nothing are skipped. -/

namespace Masthead

structure Header where
  raw : Text
  endLine : Nat
  yearStart : Int := 0
  yearEnd : Int := 0
  contributors : List Contributor := []
  spdxLicense : Option Text := none
  licenseUrl : Option Text := none
  maintainerEmail : Option Text := none
deriving DecidableEq, Repr

namespace Header

def startLine (_ : Header) : Nat := 1

/-- Takes in what a line says. The first years count, and the last license. -/
def absorb (h : Header) : Line → Header
  | .copyright first last who =>
    let h := if h.yearStart = 0 then { h with yearStart := first, yearEnd := last } else h
    { h with contributors := h.contributors ++ [who] }
  | .continuation who => { h with contributors := h.contributors ++ [who] }
  | .spdx license url maintainer =>
    { h with spdxLicense := license, licenseUrl := url, maintainerEmail := maintainer }
  | .separator => h
  | .other => h

def interior? (d : Dialect) : List Text → Option (List Line)
  | [] => none
  | line :: lines =>
    match classify d line with
    | .separator => some []
    | x => (interior? d lines).map (x :: ·)

/-- The header at the top of a text. -/
def parse? (d : Dialect) (content : Text) : Option Header :=
  match Text.lines content with
  | [] => none
  | first :: lines =>
    if classify d first = .separator then
      (interior? d lines).map fun inner =>
        let endLine := inner.length + 2
        inner.foldl absorb { raw := Text.unlines ((first :: lines).take endLine), endLine }
    else none

def isPresent (d : Dialect) (content : Text) : Bool :=
  match parse? d content with
  | some h => !h.contributors.isEmpty
  | none => false

def credits (d : Dialect) (content email : Text) : Bool :=
  match parse? d content with
  | some h => Masthead.credits h.contributors email
  | none => false

def years? (d : Dialect) (content : Text) : Option (Int × Int) :=
  match parse? d content with
  | some h => if h.yearStart = 0 then none else some (h.yearStart, h.yearEnd)
  | none => none

end Header
end Masthead
