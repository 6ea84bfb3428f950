import Masthead.Config.Table
import Masthead.Json.Parser
import Masthead.Layout.Excess
import Masthead.Terminal
import Masthead.Text.Numeral
import Masthead.Text.Utf8
import Masthead.Toml
import Masthead.Workspace.Path
import Masthead.Workspace.Tree

/-! What can go wrong while files are worked on. -/

namespace Masthead

structure FileFault where
  error : Tree.Error
  path : Text
deriving DecidableEq, Repr

def FileFault.message (e : FileFault) : Text :=
  "[Errno " ++ Text.ofNat e.error.code ++ "] " ++ e.error.description ++ ": " ++ Text.quoted e.path

inductive ConfigFault where
  | absent (path : Text)
  | unreadable (path : Text) (cause : FileFault)
  | unwritable (path : Text) (cause : FileFault)
  | invalidToml (path : Text)
  | invalidJson (path : Text)
  | notTable (path key : Text)
deriving DecidableEq, Repr

def ConfigFault.message : ConfigFault → Text
  | .absent path => "Config file not found: " ++ path
  | .unreadable path cause => "Cannot read " ++ path ++ ": " ++ cause.message
  | .unwritable path cause => "Cannot write " ++ path ++ ": " ++ cause.message
  | .invalidToml path => "Invalid TOML in " ++ path
  | .invalidJson path => "Invalid JSON in " ++ path
  | .notTable path key => path ++ ": '" ++ key ++ "' is not a table"

inductive GitFault where
  | failed (arguments : List Text)
  | foreignHook (path : Text)
deriving DecidableEq, Repr

def GitFault.message : GitFault → Text
  | .failed arguments => "git " ++ Text.join [' '] arguments ++ " failed"
  | .foreignHook path =>
    path ++ " exists and was not installed by ante; use --force to replace it"

inductive Fault where
  | file (e : FileFault)
  | encoding (e : Utf8.Fault)
  | unencodable (e : Text.HalfFault)
  | config (e : ConfigFault)
  | foreign (e : Foreign)
  | git (e : GitFault)
  | misuse (e : Terminal.Misuse)
  | number (e : Text.NumeralFault)
  | fields (e : Config.UnknownFields)
  | excess (e : Excess)
  | tooDeep (e : Json.Nesting)
  | nullByte
  | linkLoop (path : Text)
  /-- A setting holds half of a pair of UTF-16 units, and no configuration here stands for it. -/
  | unpaired
deriving DecidableEq, Repr

def Fault.message : Fault → Text
  | .file e => e.message
  | .encoding e => e.message
  | .unencodable e => e.message
  | .config e => e.message
  | .foreign e => e.message
  | .git e => e.message
  | .misuse e => e.message
  | .number e => e.message
  | .fields e => e.message
  | .excess e => e.message
  | .tooDeep e => e.message
  | .nullByte => "embedded null byte"
  | .linkLoop path => "Symlink loop from " ++ Text.quoted path
  | .unpaired => "half of a pair of units in a setting"

end Masthead
