import Masthead.Header

/-! Checking the header of a text against a configuration. -/

namespace Masthead.Header

inductive Issue where
  | missing
  | startsInFuture (year : Int)
  | endsInFuture (year : Int)
  | endsBeforeStart (first last : Int)
  | wrongLicense (found : Option Text) (expected : Text)
  | nobodyCredited
deriving DecidableEq, Repr

def Issue.message : Issue → Text
  | .missing => "No valid header found"
  | .startsInFuture year => "Year " ++ Text.ofInt year ++ " is in the future"
  | .endsInFuture year => "End year " ++ Text.ofInt year ++ " is in the future"
  | .endsBeforeStart first last =>
    "End year " ++ Text.ofInt last ++ " is before start year " ++ Text.ofInt first
  | .wrongLicense found expected =>
    "SPDX license '" ++ found.getD "None" ++ "' does not match config '" ++ expected ++ "'"
  | .nobodyCredited => "No contributors found in header"

def issues (h : Header) (c : Config) (year : Int) : List Issue :=
  (if year < h.yearStart then [.startsInFuture h.yearStart] else []) ++
  (if year < h.yearEnd then [.endsInFuture h.yearEnd] else []) ++
  (if h.yearEnd < h.yearStart then [.endsBeforeStart h.yearStart h.yearEnd] else []) ++
  (if !c.spdxLicense.isEmpty && h.spdxLicense != some c.spdxLicense then
    [.wrongLicense h.spdxLicense c.spdxLicense] else []) ++
  (if h.contributors.isEmpty then [.nobodyCredited] else [])

def validate (content : Text) (c : Config) (year : Int) : List Issue :=
  match parse? c.dialect content with
  | none => [.missing]
  | some h => h.issues c year

end Masthead.Header
