import Masthead.Value

/-! Writing JSON documents in plain ASCII. -/

namespace Masthead.Json

def escapeUnit (n : Nat) : Text := '\\' :: 'u' :: Text.hex 4 n

def escapeChar (c : Char) : Text :=
  if c = '"' ∨ c = '\\' then ['\\', c]
  else if c = '\n' then ['\\', 'n']
  else if c = '\r' then ['\\', 'r']
  else if c = '\t' then ['\\', 't']
  else if c = '\x08' then ['\\', 'b']
  else if c = '\x0c' then ['\\', 'f']
  else if 0x20 ≤ c.toNat ∧ c.toNat < 0x7f then [c]
  else if c.toNat < 0x10000 then escapeUnit c.toNat
  else
    let n := c.toNat - 0x10000
    escapeUnit (0xd800 + n / 1024) ++ escapeUnit (0xdc00 + n % 1024)

def renderText (s : Text) : Text := '"' :: s.flatMap escapeChar ++ ['"']

def renderFloat : Binary64 → Text
  | .nan => "NaN"
  | .infinite negative => if negative then "-Infinity" else "Infinity"
  | x => x.text

/-- Between the parts of a list or object: nothing but the separators, or a line break and the
indentation of the given depth. -/
inductive Layout where
  | compact
  | indented (step : Nat)

def Layout.line : Layout → Nat → Text
  | .compact, _ => []
  | .indented step, depth => '\n' :: Text.spaces (step * depth)

def Layout.comma : Layout → Text
  | .compact => [',', ' ']
  | .indented _ => [',']

mutual

def renderAt (l : Layout) (depth : Nat) : Value → Text
  | .null => "null"
  | .bool b => if b then "true" else "false"
  | .integer n => Text.ofInt n
  | .float x => renderFloat x
  | .text s => renderText s
  | .date d => renderText d.iso
  | .time t => renderText t.iso
  | .moment m => renderText m.iso
  | .list [] => "[]"
  | .list items => '[' :: renderItems l (depth + 1) items ++ l.line depth ++ [']']
  | .table [] => ['{', '}']
  | .table entries => '{' :: renderEntries l (depth + 1) entries ++ l.line depth ++ ['}']

def renderItems (l : Layout) (depth : Nat) : List Value → Text
  | [] => []
  | [v] => l.line depth ++ renderAt l depth v
  | v :: items => l.line depth ++ renderAt l depth v ++ l.comma ++ renderItems l depth items

def renderEntries (l : Layout) (depth : Nat) : List (Text × Value) → Text
  | [] => []
  | [(key, v)] => l.line depth ++ renderText key ++ ": " ++ renderAt l depth v
  | (key, v) :: entries =>
    l.line depth ++ renderText key ++ ": " ++ renderAt l depth v ++ l.comma ++
      renderEntries l depth entries

end

def render (l : Layout) (v : Value) : Text := renderAt l 0 v

end Masthead.Json
