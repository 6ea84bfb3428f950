import Masthead.Contributor
import Masthead.Text.Numeral

/-! Rankings of the authors of a file. A tally holds every author once, under the name of the first
commit, in the order of first commits. -/

namespace Masthead

abbrev Tally := List (Contributor × Nat)

namespace Tally

def add (t : Tally) (author : Contributor) (n : Nat) : Tally :=
  if t.any (·.1.key = author.key) then
    t.map fun e => if e.1.key = author.key then (e.1, e.2 + n) else e
  else t ++ [(author, n)]

def authors (t : Tally) : List Contributor := t.map (·.1)

def ranked (t : Tally) : List Contributor :=
  authors (t.mergeSort fun a b => decide (b.2 ≤ a.2))

end Tally

def authorSeparator : Char := '\x1f'

def commitMark : Char := '\x1e'

def author? (line : Text) : Option Contributor :=
  match Text.cutAt? authorSeparator line with
  | none => none
  | some (name, email) =>
    if email.isEmpty then none else some ⟨Text.strip name, Text.strip email⟩

def authorsOf (log : Text) : List Contributor := (Text.lines log).filterMap author?

def rankByCommits (authors : List Contributor) : List Contributor :=
  (authors.foldl (fun t a => Tally.add t a 1) []).ranked

def rankByRecency (authors : List Contributor) : List Contributor :=
  (authors.foldl (fun t a => Tally.add t a 1) []).authors

def changedLines (line : Text) : Except Text.NumeralFault Nat :=
  match Text.splitOn '\t' line with
  | added :: deleted :: _ :: _ => do
    let a ← Text.numeral added
    let d ← Text.numeral deleted
    .ok (a.getD 0 + d.getD 0)
  | _ => .ok 0

/-- Reads a change list: lines with the author of a commit, each with the changed files below. -/
def tallyLines (t : Tally) (current : Option Contributor) :
    List Text → Except Text.NumeralFault Tally
  | [] => .ok t
  | line :: rest =>
    match line with
    | '\x1e' :: author =>
      match author? author with
      | some a => tallyLines (t.add a 0) (some a) rest
      | none => tallyLines t none rest
    | _ =>
      match current with
      | none => tallyLines t none rest
      | some a =>
        if (Text.strip line).isEmpty then tallyLines t current rest
        else do
          let n ← changedLines line
          tallyLines (t.add a n) current rest

def rankByLines (log : Text) : Except Text.NumeralFault (List Contributor) := do
  let t ← tallyLines [] none (Text.lines log)
  .ok t.ranked

end Masthead
