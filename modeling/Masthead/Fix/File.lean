import Masthead.Header.Excess
import Masthead.Workspace

/-! Fixing the headers of files. A file that cannot be read is skipped. -/

namespace Masthead.Fix

structure FileOutcome where
  path : Text
  action : Action
  details : Text
  current : Option Text := none
  updated : Option Text := none
  newline : Newline := .lf
deriving DecidableEq, Repr

namespace FileOutcome

def skipped (path : Text) (e : Fault) : FileOutcome :=
  { path, action := .skipped, details := "Error: " ++ e.message }

def ofOutcome (path : Text) (source : Source) (o : Outcome) : FileOutcome :=
  { path, action := o.action, details := o.details, current := some source.text,
    updated := some o.text, newline := source.newline }

end FileOutcome

/-- Works out what becomes of a file, which is reported as `shown`, or as its path if that is empty,
and leaves the file as it is. The past of the file is only asked for when a new header has to be
written. -/
def file [Limits] (f : Fixer) (past : Act Past) (p : Path) (shown : Text) : Act FileOutcome := do
  let shown := if shown.isEmpty then p.text else shown
  match ← Act.attempt (Act.readSource p) with
  | .error (.file e) => return .skipped shown (.file e)
  | .error (.encoding e) => return .skipped shown (.encoding e)
  | .error e => throw e
  | .ok source =>
    let past ← match f.current? source.text with
      | none => past
      | some _ => pure {}
    Act.demandRoom (f.excess? past source.text)
    return .ofOutcome shown source (f.fix past source.text)

end Masthead.Fix
