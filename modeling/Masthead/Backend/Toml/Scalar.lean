import Masthead.Json.Parser
import Masthead.Text.Case
import Masthead.Backend.Toml.Key

/-! Numbers, dates and texts of TOML documents. -/

namespace Masthead.Backend.Toml

/-! Numbers. -/

def dropUnderscores (isDigit : Char → Bool) (before : Char) : Text → Text
  | [] => []
  | c :: rest =>
    if c = '_' ∧ isDigit before ∧ rest.head?.any isDigit then
      dropUnderscores isDigit c rest
    else c :: dropUnderscores isDigit c rest

def isAround (c : Char) : Bool := Text.isBlank c && !(28 ≤ c.toNat && c.toNat ≤ 31)

def stripRight (s : Text) : Text := (s.reverse.dropWhile isAround).reverse

def digitValue? (c : Char) : Option Nat :=
  match Text.decimalValue? c with
  | some n => some n
  | none => if 'a' ≤ c ∧ c ≤ 'f' then some (c.toNat - 87) else none

def digits? (base value : Nat) : Text → Option Nat
  | [] => some value
  | c :: rest =>
    match digitValue? c with
    | some d => if d < base then digits? base (base * value + d) rest else none
    | none => none

def baseOf : Text → Nat × Text
  | '0' :: 'b' :: rest => (2, rest)
  | '0' :: 'o' :: rest => (8, rest)
  | '0' :: 'x' :: rest => (16, rest)
  | s => (10, s)

def isBaseDigit (base : Nat) (c : Char) : Bool :=
  match Json.hexValue? c with
  | some d => d < base
  | none => false

/-- Whether a leading zero or a leading point makes the number, written without its sign,
malformed. -/
def isMisled (hasSign : Bool) (raw : Text) : Bool :=
  1 < raw.length &&
    ((Text.startsWith raw ['0'] &&
        ["0.", "0o", "0x", "0b", "0e", "0E"].all fun start => !Text.startsWith raw start.toList) ||
      (hasSign && Text.startsWith raw ['.']))

def isPointAtEnd (s : Text) : Bool := s.getLast? = some '.'

def float? (sign raw clean : Text) : Option Binary64 :=
  match Binary64.parse? (sign ++ clean) with
  | some .nan => if raw = "nan".toList then some .nan else none
  | some (.infinite b) => if raw = "inf".toList then some (.infinite b) else none
  | x => x

def number? (raw : Text) : Option Value :=
  let (sign, raw) : Text × Text := match raw with
    | '+' :: rest => (['+'], rest)
    | '-' :: rest => (['-'], rest)
    | raw => ([], raw)
  let base := (baseOf raw).1
  if isMisled (!sign.isEmpty) raw ∨ (base ≠ 10 ∧ sign ≠ []) then none
  else
    let clean := Text.lower (dropUnderscores (isBaseDigit base) ' ' raw)
    let isHex := Text.startsWith clean ['0', 'x']
    if '_' ∈ clean ∨ isPointAtEnd clean ∨
      (!isHex ∧ isPointAtEnd (clean.takeWhile (· ≠ 'e'))) then none
    else
      let clean := stripRight clean
      let digits := (baseOf clean).2
      let isTooLong := base = 10 && Text.digitLimit < digits.length
      match if digits.isEmpty ∨ isTooLong then none else digits? base 0 digits with
      | some n => some (.integer (if sign = ['-'] then -n else n))
      | none => (float? sign raw clean).map .float

/-! Dates and times. -/

def fixedDigits? (count : Nat) (s : Text) : Option (Nat × Text) :=
  let run := s.take count
  if run.length = count ∧ run.all Json.isDigit then
    (Text.decimal? run).map fun n => (n, s.drop count)
  else none

def date? (s : Text) : Option (Date × Text) := do
  let year := s.takeWhile Json.isDigit
  let y ← Text.decimal? year
  let s ← Text.drop? ['-'] (s.drop year.length)
  let (m, s) ← fixedDigits? 2 s
  let s ← Text.drop? ['-'] s
  let (d, s) ← fixedDigits? 2 s
  some (⟨y, m, d⟩, s)

def microseconds (places : Text) : Nat :=
  (Text.decimal? ((places ++ List.replicate 6 '0').take 6)).getD 0

def fraction (s : Text) : Nat × Text :=
  match s with
  | '.' :: rest =>
    let places := rest.takeWhile Json.isDigit
    if places.isEmpty then (0, s) else (microseconds places, rest.drop places.length)
  | s => (0, s)

def time? (s : Text) : Option (TimeOfDay × Text) := do
  let (h, s) ← fixedDigits? 2 s
  let s ← Text.drop? [':'] s
  let (m, s) ← fixedDigits? 2 s
  match Text.drop? [':'] s with
  | none => some (⟨h, m, 0, 0⟩, s)
  | some s =>
    let (sec, s) ← fixedDigits? 2 s
    let (micro, s) := fraction s
    some (⟨h, m, sec, micro⟩, s)

def zone? : Text → Option (Option Zone)
  | [] => some none
  | ['Z'] => some (some ⟨0, "UTC"⟩)
  | ['z'] => some (some ⟨0, "UTC"⟩)
  | sign :: s =>
    if sign = '+' ∨ sign = '-' then do
      let (h, rest) ← fixedDigits? 2 s
      let rest ← Text.drop? [':'] rest
      let (m, rest) ← fixedDigits? 2 rest
      if rest = [] ∧ h < 24 ∧ m < 60 then
        let minutes : Int := 60 * h + m
        some (some ⟨if sign = '-' then -minutes else minutes, sign :: s⟩)
      else none
    else none

def dateOnly? (s : Text) : Option Date :=
  match date? s with
  | some (d, []) => if d.isValid then some d else none
  | _ => none

def timeOnly? (s : Text) : Option TimeOfDay :=
  match time? s with
  | some (t, []) => if t.isValid then some t else none
  | _ => none

def moment? (s : Text) : Option Moment := do
  let (d, s) ← date? s
  match s with
  | sep :: s =>
    if sep = 'T' ∨ sep = 't' ∨ sep = ' ' then
      let (t, s) ← time? s
      let z ← zone? s
      if d.isValid ∧ t.isValid then some ⟨d, t, z⟩ else none
    else none
  | [] => none

/-! Texts in quotes. -/

def escape? : Char → Option Char
  | 'b' => some '\x08'
  | 't' => some '\t'
  | 'n' => some '\n'
  | 'f' => some '\x0c'
  | 'r' => some '\r'
  | 'e' => some '\x1b'
  | '"' => some '"'
  | '\\' => some '\\'
  | _ => none

def hexValue? (c : Char) : Option Nat := (Json.hexValue? c).or (Text.decimalValue? c)

def hexFrom? (value : Nat) : Text → Option Nat
  | [] => some value
  | '_' :: c :: rest => (hexValue? c).bind fun d => hexFrom? (16 * value + d) rest
  | c :: rest => (hexValue? c).bind fun d => hexFrom? (16 * value + d) rest

def hexNumber? (s : Text) : Option Nat :=
  match s with
  | '0' :: x :: rest =>
    if x = 'x' ∨ x = 'X' then if rest.isEmpty then none else hexFrom? 0 rest else hexFrom? 0 s
  | c :: rest => (hexValue? c).bind fun d => hexFrom? d rest
  | [] => none

/-- The character that a hexadecimal number behind a backslash stands for. There may be blanks
around the number and a sign before it. Numbers of more than two places are refused where they look
like half of a pair of UTF-16 units. -/
def codePoint? (digits : Text) : Option Char :=
  let isHalf := match digits with
    | d :: c :: _ :: _ => (d = 'd' || d = 'D') && !('0' ≤ c && c ≤ '7')
    | _ => false
  let n? := match stripRight (digits.dropWhile isAround) with
    | '-' :: rest => (hexNumber? rest).bind fun n => if n = 0 then some n else none
    | '+' :: rest => hexNumber? rest
    | s => hexNumber? s
  n?.bind fun n =>
    if !isHalf ∧ (n < 0xd800 ∨ (0xdfff < n ∧ n ≤ 0x10ffff)) then some (Char.ofNat n) else none

def mayHold (multiline : Bool) (c : Char) : Bool :=
  !isControl c || c = '\t' || (multiline && (c = '\n' || c = '\r'))

def isEscape (quote c : Char) : Bool := quote = '"' && c = '\\'

def lineTail? (quote : Char) : Text → Option (Text × Text)
  | [] => none
  | c :: rest =>
    if c = quote then some ([], rest)
    else if isEscape quote c then
      match rest with
      | 'x' :: a :: b :: rest =>
        (codePoint? [a, b]).bind fun x => (lineTail? quote rest).map fun (s, rest) => (x :: s, rest)
      | 'u' :: a :: b :: c :: d :: rest =>
        (codePoint? [a, b, c, d]).bind fun x => (lineTail? quote rest).map fun (s, rest) =>
          (x :: s, rest)
      | 'U' :: a :: b :: c :: d :: e :: f :: g :: h :: rest =>
        (codePoint? [a, b, c, d, e, f, g, h]).bind fun x =>
          (lineTail? quote rest).map fun (s, rest) => (x :: s, rest)
      | c :: rest =>
        (escape? c).bind fun x => (lineTail? quote rest).map fun (s, rest) => (x :: s, rest)
      | [] => none
    else if mayHold false c then (lineTail? quote rest).map fun (s, rest) => (c :: s, rest)
    else none

def isGap (c : Char) : Bool := c = ' ' || c = '\t' || c = '\n' || c = '\r'

/-- A text over several lines up to its closing quotes, and what follows them. The text may end with
one or two quotes of its own. A backslash at the end of a line takes the blanks up to the next word
with it. -/
def blockTail? (quote : Char) : Nat → Text → Option (Text × Text)
  | 0, _ => none
  | fuel + 1, s =>
    match s with
    | [] => none
    | c :: rest =>
      if c = quote then
        let quotes := s.takeWhile (· = quote)
        let rest := s.dropWhile (· = quote)
        if quotes.length < 3 then
          (blockTail? quote fuel rest).map fun (s, rest) => (quotes ++ s, rest)
        else if quotes.length < 6 then some (quotes.drop 3, rest)
        else none
      else if isEscape quote c then
        match rest with
        | 'x' :: a :: b :: rest =>
          (codePoint? [a, b]).bind fun x =>
            (blockTail? quote fuel rest).map fun (s, rest) => (x :: s, rest)
        | 'u' :: a :: b :: c :: d :: rest =>
          (codePoint? [a, b, c, d]).bind fun x =>
            (blockTail? quote fuel rest).map fun (s, rest) => (x :: s, rest)
        | 'U' :: a :: b :: c :: d :: e :: f :: g :: h :: rest =>
          (codePoint? [a, b, c, d, e, f, g, h]).bind fun x =>
            (blockTail? quote fuel rest).map fun (s, rest) => (x :: s, rest)
        | c :: tail =>
          if isGap c then
            if '\n' ∈ rest.takeWhile isGap then blockTail? quote fuel (rest.dropWhile isGap)
              else none
          else
            (escape? c).bind fun x =>
              (blockTail? quote fuel tail).map fun (s, rest) => (x :: s, rest)
        | [] => none
      else if mayHold true c then
        (blockTail? quote fuel rest).map fun (s, rest) => (c :: s, rest)
      else none

def quotedTail? (quote : Char) (s : Text) : Option (Text × Text) :=
  match s with
  | c :: c' :: rest =>
    if c = quote ∧ c' = quote then
      let rest := match rest with | '\n' :: rest => rest | rest => rest
      blockTail? quote (rest.length + 1) rest
    else lineTail? quote s
  | s => lineTail? quote s

def isBlock (quote : Char) (s : Text) : Bool := Text.startsWith s [quote, quote]

end Masthead.Backend.Toml
