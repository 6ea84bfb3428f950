import Masthead.Paint

/-! Remarks on a configuration. -/

namespace Masthead

namespace Diagnostic

inductive Level where
  | info
  | warning
  | error
deriving DecidableEq, Repr

namespace Level

def name : Level → String
  | .info => "info"
  | .warning => "warning"
  | .error => "error"

def paint : Level → Paint
  | .info => .blue
  | .warning => .yellow
  | .error => .brightRed

end Level
end Diagnostic

structure Diagnostic where
  level : Diagnostic.Level
  message : Text
deriving DecidableEq, Repr

namespace Diagnostic

def info (message : Text) : Diagnostic := ⟨.info, message⟩

def warning (message : Text) : Diagnostic := ⟨.warning, message⟩

def render [Painter] (color : Bool) (d : Diagnostic) : Text :=
  let s : Text := "[" ++ d.level.name.toList ++ "] " ++ d.message
  if color then Painter.paint [d.level.paint] s else s

structure Count where
  infos : Nat
  warnings : Nat
  errors : Nat
deriving DecidableEq, Repr

def Count.total (c : Count) : Nat := c.infos + c.warnings + c.errors

def count (ds : List Diagnostic) : Count where
  infos := ds.countP (·.level = .info)
  warnings := ds.countP (·.level = .warning)
  errors := ds.countP (·.level = .error)

end Diagnostic
end Masthead
