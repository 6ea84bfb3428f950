import Masthead.Backend.Manual

/-! A parser of command lines. Long options stand alone or with their value behind an equals sign;
short ones may stand together, and what follows one that takes a value is the value. Two hyphens end
the options. -/

namespace Masthead.Backend
open Command

namespace CommandLine

inductive Ending where
  | closed
  | open (name : Text)

def shortOptions (flags : List Flag) : Text → Except UsageFault (List (Text × Text) × Ending)
  | [] => .ok ([], .closed)
  | c :: rest =>
    match flags.find? (·.short = some c) with
    | none => .error (.unknownOption ['-', c])
    | some f =>
      if f.takesValue then
        if rest.isEmpty then .ok ([], .open f.long) else .ok ([(f.long, rest)], .closed)
      else (shortOptions flags rest).map fun (given, ending) => ((f.long, []) :: given, ending)

def longOption (f : Flag) (value : Option Text) : Except UsageFault (List (Text × Text) × Ending) :=
  match f.takesValue, value with
  | true, some v => .ok ([(f.long, v)], .closed)
  | true, none => .ok ([], .open f.long)
  | false, some _ => .error (.valueNotTaken f.long)
  | false, none => .ok ([(f.long, [])], .closed)

def options (flags : List Flag) (argument : Text) :
    Except UsageFault (List (Text × Text) × Ending) :=
  let (name, value) := match Text.cutAt? '=' argument with
    | some (name, value) => (name, some value)
    | none => (argument, none)
  match flags.find? (·.long = name) with
  | some f => longOption f value
  | none =>
    if Text.startsWith argument ['-', '-'] then .error (.unknownOption name)
    else shortOptions flags (argument.drop 1)

def isOption : Text → Bool
  | '-' :: _ :: _ => true
  | _ => false

def addRest (argument : Text) (a : Arguments) : Arguments := { a with rest := argument :: a.rest }

/-- Takes arguments apart. Unless they may be `mixed`, nothing is an option from the first other
argument on. -/
def parse (flags : List Flag) (mixed : Bool) : List Text → Except UsageFault Arguments
  | [] => .ok {}
  | argument :: arguments =>
    if argument = ['-', '-'] then .ok { rest := arguments }
    else if isOption argument then
      match options flags argument with
      | .error e => .error e
      | .ok (given, .closed) => (parse flags mixed arguments).map (Arguments.addGiven given)
      | .ok (given, .open name) =>
        match arguments with
        | [] => .error (.valueMissing name)
        | value :: arguments =>
          (parse flags mixed arguments).map (Arguments.addGiven (given ++ [(name, value)]))
    else if mixed then (parse flags mixed arguments).map (addRest argument)
    else .ok { rest := argument :: arguments }

def settled (a : Arguments) : List (Text × Text) :=
  (a.given.map (·.1)).eraseDups.filterMap fun long => (a.value? long).map fun value => (long, value)

/-! Values. -/

def namesDirectory (s : Text) : Bool :=
  match (Text.splitOn '/' s).getLast? with
  | some part => part == [] || part == ['.']
  | none => true

def target? (t : Tree) (cwd : Tree.Place) (s : Text) : Except Refusal (Option Tree) :=
  let w : Workspace := { tree := t, cwd, year := 0, git := fun _ _ => .unavailable }
  match (Act.find (Path.ofText s) w).1 with
  | .error e => .error (.fault e)
  | .ok (.ok (_, some t)) =>
    .ok <| if s.isEmpty || (t.isFile && namesDirectory s) || Act.pathLimit <
      Tree.byteCount s then none
      else some t
  | .ok _ => .ok none

def demand (i : Interface) (isFine : Bool) (e : UsageFault) : Except Refusal Unit :=
  if isFine then .ok () else .error (Manual.refusal i e)

section
variable (i : Interface) (t : Tree) (cwd : Tree.Place)

def accept (name s : Text) (accepted : Accepted) : Except Refusal Unit :=
  match accepted with
  | .anything => .ok ()
  | .oneOf names => demand i ((names.map String.toList).contains s) (.badValue name s)
  | .path => (target? t cwd s).map fun _ => ()
  | .file => do demand i ((← target? t cwd s).any fun t => !t.isDir) (.badPath s)
  | .directory => do demand i ((← target? t cwd s).any (·.isDir)) (.badPath s)
  | .notDirectory => do demand i (!(← target? t cwd s).any (·.isDir)) (.badPath s)

def acceptRest (rest : List Text) : Except Refusal Unit :=
  match i.operands, rest with
  | .none, [] => .ok ()
  | .none, extra :: _ => .error (Manual.refusal i (.unexpected extra))
  | .one name _, [] => .error (Manual.refusal i (.argumentMissing name))
  | .one name accepted, operand :: more => do
    accept i t cwd name operand accepted
    match more with
    | [] => .ok ()
    | extra :: _ => .error (Manual.refusal i (.unexpected extra))
  | .many name accepted, operands => operands.forM fun s => accept i t cwd name s accepted
  | .command _, [] => .ok ()
  | .command names, name :: _ =>
    demand i (names.any (·.1.toList = name)) (.unknownCommand name)

/-- Looks at the values that were given; a request for help comes before all else. -/
def judge (a : Arguments) : Except Refusal Unit := do
  if a.has helpFlag.long then .error (.help (Manual.help i ++ ['\n']))
  else (settled a).forM fun (long, value) =>
    match i.flags.find? (·.long = long) with
    | some f => accept i t cwd long value f.accepted
    | none => .ok ()

def isMixed : Operands → Bool
  | .command _ => false
  | _ => true

/-- Where a command is none of those declared, its options are looked at as well, so that a request
for help is heard. -/
def take (arguments : List Text) : Except Refusal Arguments := do
  let a ← (parse i.flags (isMixed i.operands) arguments).mapError (Manual.refusal i)
  judge i t cwd a
  match i.operands, a.rest with
  | .command names, name :: _ =>
    if !names.any (·.1.toList = name) then
      judge i t cwd (← (parse i.flags false a.rest).mapError (Manual.refusal i))
  | _, _ => .ok ()
  acceptRest i t cwd a.rest
  return a

end

/-! Questions. -/

def consent? (answer : Text) : Option Bool :=
  let answer := Text.strip (Text.lower answer)
  if [[], "y".toList, "yes".toList].contains answer then some true
  else if ["n".toList, "no".toList].contains answer then some false
  else none

def aborted : Text := "Aborted!\n"

def ask (question : Text) : (tries : Nat) → (input : Text) → Reply
  | 0, input => ⟨[], input, .error aborted⟩
  | tries + 1, input =>
    let asked := question ++ " [Y/n]: "
    if input.isEmpty then ⟨asked, [], .error aborted⟩
    else
      let line := input.takeWhile (· ≠ '\n')
      let rest := input.drop (line.length + 1)
      match consent? line with
      | some agreed => ⟨asked ++ line ++ ['\n'], rest, .ok agreed⟩
      | none =>
        let r := ask question tries rest
        { r with shown := asked ++ line ++ "\nError: invalid input\n".toList ++ r.shown }

def confirm (question input : Text) : Reply :=
  let input := Source.normalize input
  ask question (input.length + 2) input

end CommandLine

scoped instance : CommandLine where
  take := CommandLine.take
  help := Manual.help
  confirm := CommandLine.confirm
  style := Style.mark
  plain := Style.plain

end Masthead.Backend
