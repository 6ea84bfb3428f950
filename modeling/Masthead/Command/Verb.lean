import Masthead.Command.Arguments
import Masthead.Terminal

/-! The commands of the program, and the options they take. -/

namespace Masthead.Command

inductive Verb where
  | version
  | init
  | check
  | fix
  | add
deriving DecidableEq, Repr

inductive Format where
  | human
  | json
deriving DecidableEq, Repr

namespace Format

def all : List Format := [.human, .json]

def name : Format → String
  | .human => "human"
  | .json => "json"

def ofName? (s : Text) : Option Format := all.find? (·.name.toList = s)

end Format

/-! Options. -/

def helpFlag : Flag :=
  { long := "--help", short := some 'h', about := "Show this message and exit." }

def configFlag : Flag :=
  { long := "--config", value := some "FILE", accepted := .file,
    about := "Config file to use (ante.toml, pyproject.toml, deno.json or package.json)." }

def filterFlags : List Flag := [
  { long := "--exclude", short := some 'e', value := some "PATTERN",
    about := "Skip files matching these globs (replaces the configured list)." },
  { long := "--include", short := some 'i', value := some "PATTERN",
    about := "Only process files matching these globs (replaces the configured list)." }]

namespace Verb

def all : List Verb := [.version, .init, .check, .fix, .add]

def name : Verb → String
  | .version => "version"
  | .init => "init"
  | .check => "check"
  | .fix => "fix"
  | .add => "add"

def ofName? (s : Text) : Option Verb := all.find? (·.name.toList = s)

def about : Verb → Text
  | .version => "Show the current version of Ante."
  | .init => "Create a starter configuration and install the git pre-commit hook."
  | .check => "Validate copyright headers without modifying files."
  | .fix => "Add missing copyright headers and update existing ones."
  | .add => "Add a copyright header to a single file."

def epilog : Verb → Text
  | .check =>
    "Exits with 1 when at least one file has a missing or invalid header.\n\n" ++
      "  # Check everything below the current directory\n  ante check\n\n".toList ++
      "  # Machine-readable report\n  ante check --format json src\n".toList
  | .fix =>
    "With --dry-run nothing is written and the exit code is 2 when files would change.\n\n" ++
      "  # Fix everything below the current directory\n  ante fix\n\n".toList ++
      "  # Show what would change\n  ante fix --dry-run --diff src\n".toList
  | _ => []

def operands : Verb → Operands
  | .check | .fix => .many "PATHS" .path
  | .add => .one "FILE" .notDirectory
  | .version | .init => .none

def flags : Verb → List Flag
  | .version => [helpFlag]
  | .init => [
      { long := "--dir", value := some "DIRECTORY", accepted := .directory,
        about := "Project directory (defaults to the current directory)." },
      { long := "--skip-hooks", about := "Do not install the git hook." },
      { long := "--yes", short := some 'y', about := "Do not ask for confirmation." },
      helpFlag]
  | .check => filterFlags ++ [configFlag,
      { long := "--format", value := some "FORMAT", accepted := .oneOf (Format.all.map (·.name)),
        usual := some Format.human.name.toList, about := "Report format." },
      helpFlag]
  | .fix => filterFlags ++ [configFlag,
      { long := "--dry-run", about := "Do not write any file." },
      { long := "--diff", about := "Show unified diffs of the changes." },
      { long := "--staged",
        about := "Process staged files and stage the updated ones again (pre-commit hook mode)." },
      helpFlag]
  | .add => [{ long := "--force", about := "Replace an existing valid header." },
      configFlag, helpFlag]

def interface (v : Verb) : Interface where
  name := some v.name.toList
  about := v.about
  epilog := v.epilog
  flags := v.flags
  operands := v.operands

end Verb

def programInterface : Interface where
  about := "Maintain copyright headers with contributors, years and SPDX license lines."
  flags := [
    { long := "--quiet", short := some 'q', about := "Only print summaries and errors." },
    { long := "--verbose", short := some 'v',
      about := "Increase verbosity. Specify twice for more detail." },
    { long := "--no-color", about := "Disable color output (equivalent to --color=never)." },
    { long := "--color", value := some "MODE",
      accepted := .oneOf (Terminal.ColorMode.all.map (·.name)),
      about := "Color output: auto (default), always, or never." },
    helpFlag]
  operands := .command (Verb.all.map fun v => (v.name, v.about))

end Masthead.Command
