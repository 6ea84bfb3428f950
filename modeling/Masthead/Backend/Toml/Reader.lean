import Masthead.Backend.Toml.Body
import Masthead.Backend.Toml.Scalar

/-! Reading the parts of TOML documents: keys, values, and the ends of lines. An array takes an
unexpected character for its end when that is a closing bracket, so reading tells where it got
stuck. Keys that do not fit together are told from text that cannot be read. -/

namespace Masthead.Backend.Toml

inductive Reading (α : Type) where
  | read (a : α) (rest : Text)
  | stuck (rest : Text)
  | bad
  | clash (e : Clash)

namespace Reading

def bind {α β : Type} (r : Reading α) (f : α → Text → Reading β) : Reading β :=
  match r with
  | read a rest => f a rest
  | stuck rest => stuck rest
  | bad => bad
  | clash e => clash e

def map {α β : Type} (f : α → β) (r : Reading α) : Reading β := r.bind fun a rest => read (f a) rest

def ofOption {α : Type} : Option (α × Text) → Reading α
  | some (a, rest) => read a rest
  | none => bad

def ofExcept {α : Type} (rest : Text) : Except Clash α → Reading α
  | .ok a => read a rest
  | .error e => clash e

end Reading

def isSpace (c : Char) : Bool := c = ' ' || c = '\t'

def skipSpaces (s : Text) : Text := s.dropWhile isSpace

def upTo (s rest : Text) : Text := s.take (s.length - rest.length)

/-! Keys. -/

def bareKey (s : Text) : Reading Key :=
  let raw := s.takeWhile fun c => isBare c || isSpace c
  let name := Text.strip raw
  if name.isEmpty ∨ name.any isSpace then .bad else .read { name, raw } (s.drop raw.length)

def key (s : Text) : Reading Key :=
  match skipSpaces s with
  | c :: tail =>
    if c = '"' ∨ c = '\x27' then
      match quotedTail? c tail with
      | none => .bad
      | some (name, rest) =>
        if isBlock c tail then .stuck rest
        else .read { name, raw := upTo s (skipSpaces rest) } (skipSpaces rest)
    else bareKey s
  | [] => bareKey s

def keys : Nat → Text → Reading (List Key)
  | 0, _ => .bad
  | fuel + 1, s =>
    (key s).bind fun k rest =>
      match rest with
      | '.' :: rest => (keys fuel rest).map (k :: ·)
      | rest => .read [k] rest

def keyPath (s : Text) : Reading (List Key) := keys depthLimit s

def withSign (sign : Text) : List Key → List Key
  | [] => []
  | [k] => [{ k with sign }]
  | k :: ks => k :: withSign sign ks

def keyAndSign (s : Text) : Reading (List Key) :=
  (keyPath s).bind fun ks rest =>
    let sign := rest.takeWhile fun c => isSpace c || c = '='
    match sign.count '=' with
    | 1 => .read (withSign sign ks) (rest.drop sign.length)
    | 0 => .stuck (rest.drop sign.length)
    | _ => .bad

/-! Comments and the ends of lines. -/

def lineOf (s : Text) : Text := s.takeWhile (· ≠ '\n')

def comment (s : Text) : Reading Text :=
  let line := lineOf s
  if line.all fun c => !isControl c || c =
    '\t' then .read ('#' :: line) (s.drop line.length) else .bad

def lineFeed (s : Text) : Text × Text :=
  match s with
  | '\n' :: rest => (['\n'], rest)
  | s => ([], s)

def lineEnd (s : Text) : Reading Margin :=
  let gap := s.takeWhile isSpace
  match skipSpaces s with
  | '#' :: rest =>
    (comment rest).bind fun text rest =>
      .read { gap, comment := text, ending := (lineFeed rest).1 } (lineFeed rest).2
  | '\n' :: rest => .read { ending := gap ++ ['\n'] } rest
  | [] => .read { ending := gap } []
  | rest => .stuck rest

/-! Values. -/

def endsWord (c : Char) : Bool := c ∈ [' ', '\t', '\n', '\r', '#', ',', ']', '\x7d']

def isLineGap (c : Char) : Bool := isSpace c || c = '\n' || c = '\r'

def numberWord (s : Text) : Reading Value :=
  let word := s.takeWhile (!endsWord ·)
  Reading.ofOption ((number? word).map fun v => (v, s.drop word.length))

/-- A date, with a time behind it after a blank, or only with blanks, which come second. -/
def dateWord (d : Date) (word rest : Text) : Reading (Value × Text) :=
  let tail := rest.takeWhile fun c => c = ' ' || !endsWord c
  let time := Text.stripRight tail
  let gap := tail.drop time.length
  if time.isEmpty then .read (.date d, gap) (rest.drop tail.length)
  else Reading.ofOption ((moment? (word ++ time)).map fun m =>
    ((.moment m, gap), rest.drop tail.length))

def digitWord (s : Text) : Reading (Value × Text) :=
  let word := s.takeWhile (!endsWord ·)
  let rest := s.drop word.length
  match moment? word, dateOnly? word, timeOnly? word with
  | some m, _, _ => .read (.moment m, []) rest
  | _, some d, _ => dateWord d word rest
  | _, _, some t => .read (.time t, []) rest
  | _, _, _ => (numberWord s).map fun v => (v, [])

def startsWithName (s : Text) : Bool :=
  let word := (s.take 4).takeWhile (!endsWord ·)
  word = "inf".toList || word = "nan".toList

def valueItem (s gap rest : Text) (v : Value) : Item :=
  let raw := upTo s rest
  .value { gap } (raw.take (raw.length - gap.length)) v

def bracesGap : Nat → Body → Text → Reading Body
  | 0, _, _ => .bad
  | fuel + 1, b, s =>
    let indent := s.takeWhile isLineGap
    match s.dropWhile isLineGap with
    | '#' :: rest =>
      (comment rest).bind fun text rest =>
        bracesGap fuel (b ++ [(none, .comment { indent, comment := text, ending := [] })]) rest
    | rest => .read (if indent.isEmpty then b else b ++ [(none, .blank indent)]) rest

mutual

/-- A value; `depth` says how much deeper arrays and inline tables may be nested, and `fuel` bounds
the number of items. -/
def value : (depth fuel : Nat) → Text → Reading Item
  | _, 0, _ => .bad
  | depth, fuel + 1, s =>
    match s with
    | [] => .stuck []
    | c :: rest =>
      if c = '"' ∨ c = '\x27' then
        Reading.ofOption ((quotedTail? c rest).map fun (x, rest) =>
          (valueItem s [] rest (.text x), rest))
      else if c = '[' then
        match depth with
        | 0 => .bad
        | depth + 1 =>
          if rest.isEmpty then .bad
          else (items depth fuel false rest).bind fun vs rest =>
            .read (valueItem s [] rest (.list vs)) rest
      else if c = '\x7b' then
        match depth with
        | 0 => .bad
        | depth + 1 =>
          if rest.isEmpty then .bad
          else (members depth fuel none [] rest).bind fun b rest =>
            .read (.inline {} (upTo s rest) b) rest
      else if c = 't' ∨ c = 'f' then
        match Text.drop? "true" s, Text.drop? "false" s with
        | some rest, _ => .read (valueItem s [] rest (.bool true)) rest
        | _, some rest => .read (valueItem s [] rest (.bool false)) rest
        | _, _ => .stuck s
      else if c = '+' ∨ c = '-' ∨ startsWithName s then
        (numberWord s).bind fun v rest => .read (valueItem s [] rest v) rest
      else if Json.isDigit c then
        (digitWord s).bind fun (v, gap) rest => .read (valueItem s gap rest v) rest
      else .stuck s

def items : (depth fuel : Nat) → (behind : Bool) → Text → Reading (List Value)
  | _, 0, _, _ => .bad
  | depth, fuel + 1, behind, s =>
    match s.dropWhile isLineGap with
    | '#' :: rest => (comment rest).bind fun _ rest => items depth fuel behind rest
    | s =>
      if behind then
        match s with
        | ']' :: rest => .read [] rest
        | ',' :: rest => if rest.isEmpty then .bad else items depth fuel false rest
        | s => .stuck s
      else
        match value depth fuel s with
        | .read item rest =>
          (Reading.ofExcept rest item.meaning).bind fun v rest =>
            (items depth fuel true rest).map (v :: ·)
        | .stuck (']' :: rest) => .read [] rest
        | .stuck rest => .stuck rest
        | .bad => .bad
        | .clash e => .clash e

def members : (depth fuel : Nat) → (comma : Option Bool) → Body → Text → Reading Body
  | _, 0, _, _, _ => .bad
  | depth, fuel + 1, comma, b, s =>
    (bracesGap (s.length + 1) b s).bind fun b s =>
      match s with
      | '\x7d' :: rest => .read b rest
      | ',' :: _ => .stuck s
      | _ =>
        if comma = some false then .stuck s
        else
          (keyAndSign s).bind fun ks rest =>
            (value depth fuel rest).bind fun item rest =>
              (Reading.ofExcept rest
                (b.addPath true ks (item.mapMargin fun m => { m with ending := [] }))).bind
                fun b rest =>
                  (bracesGap (rest.length + 1) b rest).bind fun b rest =>
                    match rest with
                    | ',' :: rest => if rest.isEmpty then .bad else members depth fuel
                        (some true) b rest
                    | rest => members depth fuel (some false) b rest

end

end Masthead.Backend.Toml
