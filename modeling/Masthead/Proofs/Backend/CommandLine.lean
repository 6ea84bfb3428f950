import Masthead.Backend.CommandLine
import Masthead.Proofs.Command.Arguments
import Mathlib.Data.List.Basic

/-! The parser of command lines takes an option without a value in front of all other arguments. -/

namespace Masthead.Backend.CommandLine
open Command Arguments

theorem filter_eraseDups {α : Type} [BEq α] [LawfulBEq α] (p : α → Bool) (l : List α) :
    l.eraseDups.filter p = (l.filter p).eraseDups := by
  match l with
  | [] => rfl
  | a :: l =>
    have ih := filter_eraseDups p (l.filter fun b => !b == a)
    rw [List.eraseDups_cons]
    by_cases ha : p a = true
    · rw [List.filter_cons_of_pos ha, List.filter_cons_of_pos ha, List.eraseDups_cons, ih,
        List.filter_comm]
    · rw [List.filter_cons_of_neg ha, List.filter_cons_of_neg ha, ih, List.filter_filter]
      congr 1
      refine List.filter_congr fun b _ => ?_
      by_cases hb : b = a
      · subst hb
        simp [ha]
      · simp [hb]
termination_by l.length
decreasing_by exact Nat.lt_succ_of_le (List.length_filter_le _ _)

theorem forM_filter {ε α : Type} {f : α → Except ε PUnit} {p : α → Bool} (h : ∀ a, p a = false →
    f a = pure ⟨⟩)
    (l : List α) : (l.filter p).forM f = l.forM f := by
  rw [List.forM_eq_forM]
  induction l with
  | nil => rfl
  | cons a l ih =>
    cases hp : p a with
    | true => rw [List.filter_cons_of_pos hp, List.forM_cons, List.forM_cons, ih]
    | false => rw [List.filter_cons_of_neg (by simp [hp]), List.forM_cons, h a hp, pure_bind, ih]

section Settled
variable {a : Arguments} {flag : Text}

theorem filter_settled (a : Arguments) (p : Text → Bool) :
    (settled a).filter (fun given => p given.1) =
      ((a.given.map (·.1)).filter p).eraseDups.filterMap fun long => (a.value? long).map
      fun value => (long, value) := by
  rw [settled, List.filter_filterMap, ← filter_eraseDups, List.filterMap_filter]
  congr 1
  funext long
  cases hp : p long <;> cases a.value? long <;> simp [hp]

theorem settled_withFlag (a : Arguments) :
    (settled (withFlag flag a)).filter (fun given => given.1 ≠ flag) =
      (settled a).filter fun given => given.1 ≠ flag := by
  rw [filter_settled (withFlag flag a) (fun long => long ≠ flag),
    filter_settled a (fun long => long ≠ flag)]
  have hnames : ((withFlag flag a).given.map (·.1)).filter (fun long => long ≠ flag) =
      (a.given.map (·.1)).filter fun long => long ≠ flag := by
    rw [given_withFlag, List.map_cons, List.filter_cons_of_neg (by simp)]
  -- the names that are left have the values they had
  rw [hnames]
  refine List.filterMap_congr fun long hlong => ?_
  have hne : long ≠ flag := by simpa using (List.mem_filter.mp (List.mem_eraseDups.mp hlong)).2
  rw [value?, value?, values_withFlag hne]

end Settled

structure IsBare (i : Interface) (flag : Text) : Prop where
  option : isOption flag = true
  not_end : flag ≠ ['-', '-']
  not_help : flag ≠ helpFlag.long
  mixed : isMixed i.operands = true
  taken : options i.flags flag = .ok ([(flag, [])], .closed)
  accepted : ∀ f, i.flags.find? (·.long = flag) = some f → f.accepted = .anything

section Take
variable {i : Interface} {flag : Text}

theorem IsBare.parse (h : IsBare i flag) (arguments : List Text) :
    parse i.flags true (flag :: arguments) =
    (parse i.flags true arguments).map (withFlag flag) := by
  rw [CommandLine.parse, if_neg h.not_end, if_pos h.option, h.taken]
  rfl

def weigh (i : Interface) (tree : Tree) (cwd : Tree.Place) (given : Text × Text) :
    Except Refusal Unit :=
  match i.flags.find? (·.long = given.1) with
  | some f => accept i tree cwd given.1 given.2 f.accepted
  | none => .ok ()

theorem judge_eq (i : Interface) (tree : Tree) (cwd : Tree.Place) (a : Arguments) :
    judge i tree cwd a =
      if a.has helpFlag.long then .error (.help (Manual.help i ++ ['\n']))
      else (settled a).forM (weigh i tree cwd) := rfl

theorem IsBare.judge (h : IsBare i flag) (tree : Tree) (cwd : Tree.Place) (a : Arguments) :
    judge i tree cwd (withFlag flag a) = judge i tree cwd a := by
  have hanything : ∀ given : Text × Text, decide (given.1 ≠ flag) = false → weigh i tree cwd given =
      pure () := by
    rintro ⟨long, value⟩ hflag
    obtain rfl : long = flag := by simpa using hflag
    rw [weigh]
    split
    · next f hf => rw [h.accepted f hf, accept]; rfl
    · rfl
  rw [judge_eq, judge_eq, has_withFlag h.not_help.symm, ← forM_filter hanything, settled_withFlag,
    forM_filter hanything]

theorem IsBare.takesFlag (h : IsBare i flag) : TakesFlag i flag := by
  intro tree cwd arguments
  change take i tree cwd (flag :: arguments) = (take i tree cwd arguments).map (withFlag flag)
  rw [take, take, h.mixed, h.parse]
  cases CommandLine.parse i.flags true arguments with
  | error e => rfl
  | ok a =>
    change (CommandLine.judge i tree cwd (withFlag flag a) >>= _) =
      Except.map _ (CommandLine.judge i tree cwd a >>= _)
    rw [h.judge]
    cases CommandLine.judge i tree cwd a with
    | error r => rfl
    | ok _ =>
      have hmixed := h.mixed
      cases hoperands : i.operands with
      | command names => rw [hoperands] at hmixed; cases hmixed
      | _ =>
        change (acceptRest i tree cwd a.rest >>= _) =
          Except.map _ (acceptRest i tree cwd a.rest >>= _)
        cases acceptRest i tree cwd a.rest <;> rfl

end Take

theorem isBare_dryRun : IsBare (Verb.interface .fix) "--dry-run".toList where
  option := rfl
  not_end := by decide
  not_help := by decide
  mixed := rfl
  taken := rfl
  accepted := by
    intro f hf
    have hfind : (Verb.interface .fix).flags.find? (·.long = "--dry-run".toList) =
        some { long := "--dry-run", about := "Do not write any file." } := rfl
    obtain rfl := Option.some.inj (hfind.symm.trans hf)
    rfl

end Masthead.Backend.CommandLine
