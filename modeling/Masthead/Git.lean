import Masthead.Contributor.Ranking
import Masthead.Fix
import Masthead.Workspace

/-! What git knows about files and people. Where git is missing or has nothing to say, there is no
answer rather than a failure. -/

namespace Masthead.Git

def run (arguments : List Text) (directory : Path) : Act (Option Text) := do
  let call : Call := ⟨arguments, Tree.collapse ((← Act.startOf directory) ++ directory.parts)⟩
  let w ← get
  set { w with calls := w.calls ++ [call] }
  match w.git w.calls call with
  | .exit 0 output => return some (Text.stripRight output)
  | _ => return none

def runOrFail (arguments : List Text) (directory : Path) : Act Text := do
  match ← run arguments directory with
  | some output => return output
  | none => throw (.git (.failed arguments))

def setting (key : Text) (directory : Path) : Act (Option Text) := do
  match ← run ["config", "--get", key] directory with
  | some (c :: output) => return some (Text.strip (c :: output))
  | _ => return none

def user (directory : Path) : Act (Option Contributor) := do
  let name ← setting "user.name" directory
  let email ← setting "user.email" directory
  match name, email with
  | some (n :: name), some (e :: email) => return some ⟨n :: name, e :: email⟩
  | _, _ => return none

def ofNumeral {α : Type} : Except Text.NumeralFault α → Act α := Act.ofExcept .number

def logArguments (options : List Text) (name : Text) : List Text :=
  ["log".toList, "--follow".toList] ++ options ++ ["--".toList, name]

def authorFormat : Text := "%an".toList ++ authorSeparator :: "%ae".toList

def authors (path : Path) (selection : Selection) (limit : Int) : Act (List Contributor) := do
  if limit ≤ 0 then return []
  else
    let ranked ← match selection with
      | .manual => pure []
      | .lines => do
        let options : List Text := ["--numstat", "--format=" ++ commitMark :: authorFormat]
        match ← run (logArguments options path.name) path.parent with
        | some (c :: log) => ofNumeral (rankByLines (c :: log))
        | _ => pure []
      | selection => do
        let options : List Text := ["--format=" ++ authorFormat]
        let found := authorsOf ((← run (logArguments options path.name) path.parent).getD [])
        pure (if selection = .recent then rankByRecency found else rankByCommits found)
    return ranked.take limit.toNat

def numbersIn (s : Text) : Except Text.NumeralFault (List Nat) :=
  (Text.words s).filterMapM Text.numeral

def years (path : Path) : Act (Option (Int × Int)) := do
  let options : List Text := ["--format=%ad", "--date=format:%Y"]
  match ← run (logArguments options path.name) path.parent with
  | none => return none
  | some output =>
    match ← ofNumeral (numbersIn output) with
    | [] => return none
    | y :: ys =>
      return some (((ys.foldl min y : Nat) : Int), ((ys.foldl max y : Nat) : Int))

def staged (kinds : Text) (directory : Path) : Act (List Text) := do
  let output ← run ["diff", "--cached", "--name-only", "--diff-filter=" ++ kinds] directory
  return (Text.looseLines (output.getD [])).filter (!·.isEmpty)

def keptKinds : Text := "ACM"

def root (directory : Path) : Act (Option Path) := do
  match ← run ["rev-parse", "--show-toplevel"] directory with
  | some (c :: output) => return some (Path.ofText (c :: output))
  | _ => return none

def tracks (path : Path) : Act Bool := do
  return (← run ["ls-files", "--error-unmatch", "--", path.name] path.parent).isSome

def stage (path : Path) : Act Bool := do
  return (← run ["add", "--", path.name] path.parent).isSome

/-- The past of a file, as far as a new header under the configuration needs it. -/
def past (c : Config) (path : Path) : Act Past := do
  let years ← years path
  match c.question? with
  | none => return { years }
  | some (selection, limit) => return { ranked := ← authors path selection limit, years }

end Masthead.Git
