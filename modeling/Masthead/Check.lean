import Masthead.Header.Validation
import Masthead.Workspace

/-! Checking the headers of files, and the report on them. -/

namespace Masthead.Check

inductive Problem where
  | unreadable (e : Fault)
  | header (issue : Header.Issue)
deriving DecidableEq, Repr

def Problem.message : Problem → Text
  | .unreadable e => "Failed to read file: " ++ e.message
  | .header issue => issue.message

structure Result where
  path : Text
  problems : List Problem
deriving DecidableEq, Repr

def Result.isValid (r : Result) : Bool := r.problems.isEmpty

/-- Checks one file, which is reported as `shown`, or as its path if that is empty. -/
def file (c : Config) (year : Int) (p : Path) (shown : Text) : Act Result := do
  let shown := if shown.isEmpty then p.text else shown
  match ← Act.attempt (Act.readSource p) with
  | .error (.file e) => return ⟨shown, [.unreadable (.file e)]⟩
  | .error (.encoding e) => return ⟨shown, [.unreadable (.encoding e)]⟩
  | .error e => throw e
  | .ok source =>
    let body := (Source.splitPreamble source.text).2
    return ⟨shown, (Header.validate body c year).map .header⟩

def files (c : Config) (year : Int) (base : Path) (paths : List Text) : Act (List Result) :=
  paths.mapM fun path => file c year (base.join (Path.ofText path)) path

def passed (rs : List Result) : Nat := rs.countP (·.isValid)

def report (rs : List Result) : Value :=
  .table [
    ("totalFiles".toList, .integer rs.length),
    ("passedFiles".toList, .integer (passed rs)),
    ("failedFiles".toList, .integer (rs.length - passed rs)),
    ("files".toList, .list (rs.map fun r => .table [
      ("path".toList, .text r.path),
      ("valid".toList, .bool r.isValid),
      ("issues".toList, .list (r.problems.map fun p => .text p.message))]))]

end Masthead.Check
