import Masthead.Text.Basic

/-! The script that runs before a commit and brings the headers of the staged files up to date. -/

namespace Masthead.Git

def hookMarker : Text := "# ante:pre-commit"

def isPlain (c : Char) : Bool :=
  ('a' ≤ c && c ≤ 'z') || ('A' ≤ c && c ≤ 'Z') || ('0' ≤ c && c ≤ '9') ||
    "_@%+=:,./-".toList.contains c

def shellWord (s : Text) : Text :=
  if s.isEmpty then ['\x27', '\x27']
  else if s.all isPlain then s
  else
    '\x27' :: s.flatMap (fun c => if c = '\x27' then "'\"'\"'".toList else [c]) ++ ['\x27']

def hookScript (configPath : Option Text) : Text :=
  let command : Text := match configPath with
    | some (c :: rest) => "ante fix --staged --config " ++ shellWord (c :: rest)
    | _ => "ante fix --staged"
  Text.unlines [
    "#!/bin/sh",
    hookMarker,
    "# Updates copyright headers of staged files. Installed by `ante init`.",
    [],
    "if ! command -v ante >/dev/null 2>&1; then",
    "    echo \"ante: not found on PATH, skipping header update\" >&2",
    "    exit 0",
    "fi",
    [],
    "exec " ++ command,
    []]

end Masthead.Git
