import Masthead.Text.Quoted

/-! Reading a count out of a text that may hold anything. -/

namespace Masthead.Text

inductive NumeralFault where
  | notDecimal (digits : Text)
  | tooLong (count : Nat)
  | unwritable
deriving DecidableEq, Repr

def NumeralFault.message : NumeralFault → Text
  | .notDecimal digits => "invalid literal for int() with base 10: " ++ (quoted digits).take 200
  | .tooLong count => limit ++ ": value has " ++ ofNat count ++ " digits; " ++ advice
  | .unwritable => limit ++ "; " ++ advice
where
  limit : Text := "Exceeds the limit (" ++ ofNat digitLimit ++
    " digits) for integer string conversion"
  advice : Text := "use sys.set_int_max_str_digits() to increase the limit"

/-- The number that a text of digits denotes; nothing when the text is no text of digits. The
decimal digits at the front must not be too many, whatever follows them. -/
def numeral (s : Text) : Except NumeralFault (Option Nat) :=
  if isDigits s then
    let count := (s.takeWhile isDecimal).length
    if digitLimit < count then .error (.tooLong count)
    else
      match decimal? s with
      | some n => .ok (some n)
      | none => .error (.notDecimal s)
  else .ok none

def isWritable (n : Int) : Bool := n.natAbs < Nat.pow 10 digitLimit

end Masthead.Text
