import Masthead.Text.Digit
import Masthead.Text.Printable

/-! Texts as they are shown in messages: in quotes, with a backslash before the quote and before a
backslash, and with escapes for what cannot be shown. -/

namespace Masthead.Text

def hex (width n : Nat) : Text :=
  let digits := Nat.toDigits 16 n
  List.replicate (width - digits.length) '0' ++ digits

def quotedChar (quote c : Char) : Text :=
  if c = quote ∨ c = '\\' then ['\\', c]
  else if c = '\n' then ['\\', 'n']
  else if c = '\r' then ['\\', 'r']
  else if c = '\t' then ['\\', 't']
  else if isPrintable c then [c]
  else if c.toNat < 0x100 then '\\' :: 'x' :: hex 2 c.toNat
  else if c.toNat < 0x10000 then '\\' :: 'u' :: hex 4 c.toNat
  else '\\' :: 'U' :: hex 8 c.toNat

def quoteFor (s : Text) : Char :=
  if '\x27' ∈ s ∧ '"' ∉ s then '"' else '\x27'

def quoted (s : Text) : Text :=
  quoteFor s :: s.flatMap (quotedChar (quoteFor s)) ++ [quoteFor s]

end Masthead.Text
