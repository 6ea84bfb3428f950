import Masthead.Text.Quoted

/-! Keys of TOML documents, and texts in double quotes. -/

namespace Masthead.Backend.Toml

structure Key where
  name : Text
  raw : Text
  sign : Text := []
  isDotted : Bool := false
deriving DecidableEq, Repr

/-- How many parts a dotted key may have, and how deep arrays and inline tables may be nested. -/
def depthLimit : Nat := 100

def isBare (c : Char) : Bool :=
  ('a' ≤ c && c ≤ 'z') || ('A' ≤ c && c ≤ 'Z') || ('0' ≤ c && c ≤ '9') || c = '-' || c = '_'

def isControl (c : Char) : Bool := c.toNat ≤ 0x1f || c = '\x7f'

def escapeChar (c : Char) : Text :=
  if c = '"' ∨ c = '\\' then ['\\', c]
  else if c = '\x08' then ['\\', 'b']
  else if c = '\t' then ['\\', 't']
  else if c = '\n' then ['\\', 'n']
  else if c = '\x0c' then ['\\', 'f']
  else if c = '\r' then ['\\', 'r']
  else if c = '\x1b' then ['\\', 'e']
  else if isControl c then '\\' :: 'u' :: Text.hex 4 c.toNat
  else [c]

def doubleQuoted (s : Text) : Text := '"' :: s.flatMap escapeChar ++ ['"']

namespace Key

def ofName (name : Text) : Key where
  name := name
  raw := if !name.isEmpty && name.all isBare then name else doubleQuoted name
  sign := " = "

def path (keys : List Key) : Text := Text.join ['.'] (keys.map (·.raw))

end Key
end Masthead.Backend.Toml
