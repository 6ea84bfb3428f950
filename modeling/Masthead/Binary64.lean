import Masthead.Text.Digit

/-! Numbers of the 64-bit binary format, read from decimals and written with the fewest digits that
read back. All steps are exact: a finite number is its mantissa and its power of two. -/

namespace Masthead

/-- A finite number is `mantissa * 2 ^ exponent`; the mantissa has 53 bits unless the exponent is
the least one, -1074. -/
inductive Binary64 where
  | nan
  | infinite (negative : Bool)
  | finite (negative : Bool) (mantissa : Nat) (exponent : Int)
deriving DecidableEq, Repr

namespace Binary64

def roundDiv (num den : Nat) : Nat :=
  let low := num / den
  let rest := 2 * (num % den)
  if rest < den then low
  else if den < rest then low + 1
  else if low % 2 = 0 then low else low + 1

def scale (base : Nat) (power : Int) (num den : Nat) : Nat × Nat :=
  if 0 ≤ power then (num * base.pow power.toNat, den) else (num, den * base.pow (-power).toNat)

def leastMantissa : Nat := Nat.pow 2 52

def ofFraction (negative : Bool) (num den : Nat) : Binary64 :=
  if num = 0 then .finite negative 0 (-1074)
  else
    let guess : Int := (Nat.log2 num : Int) - Nat.log2 den - 52
    let fits := let (n, d) := scale 2 (-guess) num den; leastMantissa ≤ n / d
    let q := max (if fits then guess else guess - 1) (-1074)
    let (n, d) := scale 2 (-q) num den
    let m := roundDiv n d
    let (m, q) := if m = 2 * leastMantissa then (leastMantissa, q + 1) else (m, q)
    if 971 < q then .infinite negative else .finite negative m q

def ofDecimal (negative : Bool) (digits : Nat) (power : Int) : Binary64 :=
  let places : Int := power + (Nat.toDigits 10 digits).length
  if digits = 0 ∨ places < -330 then .finite negative 0 (-1074)
  else if 310 < places then .infinite negative
  else
    let (num, den) := scale 10 power digits 1
    ofFraction negative num den

def fraction (mantissa : Nat) (exponent : Int) : Nat × Nat := scale 2 exponent mantissa 1

def leadingPlace (num den : Nat) : Nat → Int
  | 0 => 0
  | fuel + 1 =>
    if den ≤ num then (Nat.toDigits 10 (num / den)).length
    else leadingPlace (num * 10) den fuel - 1

/-- The points of the decimal grid of `places` significant digits beside `num / den` that read back
as `x`; of two the nearer. The grid step is `10 ^ (k - places)`. -/
def onGrid? (x : Binary64) (num den : Nat) (k : Int) (places : Nat) : Option Nat :=
  let power := k - places
  let (n, d) := scale 10 (-power) num den
  let low := n / d
  let readsBack (digits : Nat) : Bool := decide (ofDecimal false digits power = x)
  let lowOk := readsBack low
  let highOk := readsBack (low + 1)
  if lowOk && highOk then
    some (if 2 * n < (2 * low + 1) * d ∨ (2 * n = (2 * low + 1) * d ∧ low % 2 = 0) then low
      else low + 1)
  else if lowOk then some low
  else if highOk then some (low + 1)
  else none

def firstGrid (x : Binary64) (num den : Nat) (k : Int) (places : Nat) : Nat → Nat × Int
  | 0 => (0, 0)
  | fuel + 1 =>
    match onGrid? x num den k places with
    | some digits => (digits, k - places)
    | none => firstGrid x num den k (places + 1) fuel

def shortest (mantissa : Nat) (exponent : Int) : Text × Int :=
  let (num, den) := fraction mantissa exponent
  let k := leadingPlace num den 400
  let (digits, power) := firstGrid (.finite false mantissa exponent) num den k 1 17
  let text := Text.ofNat digits
  let point := power + text.length
  ((text.reverse.dropWhile (· = '0')).reverse, point)

/-- Digits with the point after `point` of them: written out for points from -3 to 16, with an
exponent of at least two places otherwise. There is always a digit on each side of a point. -/
def layOut (digits : Text) (point : Int) : Text :=
  if -4 < point ∧ point ≤ 16 then
    if point ≤ 0 then "0." ++ List.replicate (-point).toNat '0' ++ digits
    else
      let whole := digits.take point.toNat
      let filled := whole ++ List.replicate (point.toNat - whole.length) '0'
      let places := digits.drop point.toNat
      filled ++ "." ++ (if places.isEmpty then ['0'] else places)
  else
    let power := point - 1
    let places := digits.drop 1
    digits.take 1 ++ (if places.isEmpty then [] else '.' :: places) ++
      ['e', if power < 0 then '-' else '+'] ++ Text.ofNatPadded 2 power.natAbs

def signText (negative : Bool) : Text := if negative then ['-'] else []

def text : Binary64 → Text
  | .nan => "nan"
  | .infinite negative => signText negative ++ "inf"
  | .finite negative mantissa exponent =>
    if mantissa = 0 then signText negative ++ "0.0"
    else
      let (digits, point) := shortest mantissa exponent
      signText negative ++ layOut digits point

def digitRun (value count : Nat) : Text → Nat × Nat × Text
  | [] => (value, count, [])
  | c :: rest =>
    match Text.decimalValue? c with
    | some d => digitRun (10 * value + d) (count + 1) rest
    | none => (value, count, c :: rest)

def sign : Text → Bool × Text
  | '-' :: rest => (true, rest)
  | '+' :: rest => (false, rest)
  | s => (false, s)

def exponent? : Text → Option Int
  | [] => some 0
  | c :: rest =>
    if c = 'e' ∨ c = 'E' then
      let (negative, rest) := sign rest
      match digitRun 0 0 rest with
      | (n, _ + 1, []) => some (if negative then -n else n)
      | _ => none
    else none

def parse? (s : Text) : Option Binary64 :=
  let (negative, s) := sign s
  let name := s.map Char.toLower
  if name = "inf" ∨ name = "infinity" then some (.infinite negative)
  else if name = "nan" then some .nan
  else
    let (whole, wholeCount, rest) := digitRun 0 0 s
    let (digits, placeCount, rest) :=
      match rest with
      | '.' :: rest => digitRun whole 0 rest
      | rest => (whole, 0, rest)
    if wholeCount + placeCount = 0 then none
    else (exponent? rest).map fun e => ofDecimal negative digits (e - placeCount)

end Binary64
end Masthead
