import Masthead.Command
import Masthead.Proofs.Workspace.Files

/-! Arguments with an option without a value in front. What a parser of command lines owes them is
that they are taken apart as they are without the option, which is then given. -/

namespace Masthead.Command

namespace Arguments
variable {a : Arguments} {flag long : Text}

def withFlag (flag : Text) (a : Arguments) : Arguments := addGiven [(flag, [])] a

theorem given_withFlag : (withFlag flag a).given = (flag, []) :: a.given := rfl

theorem values_withFlag (h : long ≠ flag) : (withFlag flag a).values long = a.values long := by
  rw [values, values, given_withFlag, List.filter_cons_of_neg (by simpa using h.symm)]

theorem has_withFlag (h : long ≠ flag) : (withFlag flag a).has long = a.has long := by
  rw [has, has, given_withFlag, List.any_cons, decide_eq_false h.symm, Bool.false_or]

theorem has_withFlag_self : (withFlag flag a).has flag = true := by
  rw [has, given_withFlag, List.any_cons, decide_eq_true rfl, Bool.true_or]

end Arguments

section
variable [CommandLine]

/-- The option may stand in front of all other arguments, and makes no difference to them. -/
def TakesFlag (i : Interface) (flag : Text) : Prop :=
  ∀ tree cwd arguments, CommandLine.take i tree cwd (flag :: arguments) =
    (CommandLine.take i tree cwd arguments).map (Arguments.withFlag flag)

theorem parsed_eq (i : Interface) (arguments : List Text) (w : Workspace) :
    parsed i arguments w = ((CommandLine.take i w.tree w.cwd arguments).mapError .refused, w) := by
  have hget : (get : Run Workspace) w = (.ok w, w) := rfl
  rw [parsed, bind_of_ok _ hget]
  cases CommandLine.take i w.tree w.cwd arguments <;> rfl

theorem parsed_eq_ok {i : Interface} {arguments : List Text} {a : Arguments} {w w' : Workspace}
    (h : parsed i arguments w = (.ok a, w')) :
    CommandLine.take i w.tree w.cwd arguments = .ok a ∧ w' = w := by
  rw [parsed_eq] at h
  obtain ⟨htake, hw⟩ := Prod.ext_iff.mp h
  refine ⟨?_, hw.symm⟩
  cases hr : CommandLine.take i w.tree w.cwd arguments with
  | error r =>
    rw [hr] at htake
    cases htake
  | ok a' =>
    rw [hr] at htake
    exact congrArg Except.ok (Except.ok.inj htake)

theorem TakesFlag.parsed {i : Interface} {flag : Text} (h : TakesFlag i flag)
    (arguments : List Text) :
    parsed i (flag :: arguments) = Arguments.withFlag flag <$> parsed i arguments := by
  funext w
  have hmap : (Arguments.withFlag flag <$> Command.parsed i arguments) w =
      ((Command.parsed i arguments w).1.map (Arguments.withFlag flag),
        (Command.parsed i arguments w).2) := by
    change (Command.parsed i arguments >>= fun a => pure (Arguments.withFlag flag a)) w = _
    rw [bind_apply]
    rcases Command.parsed i arguments w with ⟨_ | a, w'⟩ <;> rfl
  rw [hmap, parsed_eq, parsed_eq, h]
  cases CommandLine.take i w.tree w.cwd arguments <;> rfl

end
end Masthead.Command
