import Masthead.Command.Verb

/-! How commands end. -/

namespace Masthead.Command

/-! Exit codes. -/

def success : Nat := 0
def failure : Nat := 1
def wouldChange : Nat := 2
def badUsage : Nat := 2

inductive Trouble where
  | encoding (message : Text)
  | missing
  | denied
  | other (message : Text)
deriving DecidableEq, Repr

namespace Trouble

def ofFault : Fault → Trouble
  | .encoding e => .encoding e.message
  | .file e => if e.error = .missing then .missing else .other e.message
  | e => .other e.message

def message (path : Text) : Trouble → Text
  | .encoding message => path ++ ": not valid UTF-8 (" ++ message ++ ")"
  | .missing => path ++ ": no such file"
  | .denied => path ++ ": permission denied"
  | .other message => path ++ ": " ++ message

def exitCode : Trouble → Nat
  | .encoding _ => 65
  | .missing => 66
  | .denied => 77
  | .other _ => 74

end Trouble

inductive Failure where
  | misuse (e : Terminal.Misuse)
  | config (e : ConfigFault)
  | file (path : Text) (trouble : Trouble)
deriving DecidableEq, Repr

namespace Failure

def message : Failure → Text
  | .misuse e => e.message
  | .config e => e.message
  | .file path trouble => trouble.message path

def exitCode : Failure → Nat
  | .misuse _ => 64
  | .config _ => 78
  | .file _ trouble => trouble.exitCode

end Failure

inductive Stop where
  | exit (code : Nat)
  | failed (e : Failure)
  | refused (r : Refusal)
  | aborted (said : Text)
  | fault (e : Fault)
deriving DecidableEq, Repr

abbrev Run := ExceptT Stop (StateM Workspace)

namespace Run

def ofAct {α : Type} (act : Act α) : Run α :=
  fun w => match act w with
    | (.ok a, w) => (.ok a, w)
    | (.error e, w) => (.error (.fault e), w)

instance : MonadLift Act Run := ⟨ofAct⟩

def outcome {α : Type} (run : Run α) : Act (Except Stop α) :=
  fun w => let (r, w) := run w; (.ok r, w)

def stop {α : Type} (s : Stop) : Run α := throw s

def fail {α : Type} (e : Failure) : Run α := throw (.failed e)

def configured {α : Type} (act : Act α) : Run α := do
  match ← Act.attempt act with
  | .ok a => return a
  | .error (.config e) => fail (.config e)
  | .error e => stop (.fault e)

def withFile {α : Type} (path : Text) (act : Act α) : Run α := do
  match ← Act.attempt act with
  | .ok a => return a
  | .error (.file e) => fail (.file path (.ofFault (.file e)))
  | .error (.encoding e) => fail (.file path (.ofFault (.encoding e)))
  | .error e => stop (.fault e)

end Run
end Masthead.Command
