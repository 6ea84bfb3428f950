import Masthead.Paint
import Masthead.Text.Digit

/-! Colours and weights of terminal output. Painted text turns its style off around line breaks and
around text that resets the terminal, and on again where other text has turned a part of it off. -/

namespace Masthead

namespace Backend

namespace Paint

def on : Paint → Nat
  | .red => 31
  | .green => 32
  | .yellow => 33
  | .blue => 34
  | .cyan => 36
  | .gray => 90
  | .brightRed => 91
  | .bold => 1
  | .dim => 2
  | .underline => 4

def off : Paint → Nat
  | .bold | .dim => 22
  | .underline => 24
  | _ => 39

end Paint

namespace Style

def escapeMark : Char := '\x1b'

def sequence (code : Nat) : Text := escapeMark :: '[' :: Text.ofNat code ++ ['m']

def reset : Text := sequence 0

def allOn (paints : List Paint) : Text := paints.flatMap fun p => sequence (Paint.on p)

def allOff (paints : List Paint) : Text := paints.flatMap fun p => sequence (Paint.off p)

def lengthBefore? (mark : Text) : Text → Option Nat
  | [] => none
  | c :: rest =>
    if Text.startsWith (c :: rest) mark then some 0
    else if c = '\n' then none
    else (lengthBefore? mark rest).map (· + 1)

def resetSpan? (s : Text) : Option Nat :=
  match Text.drop? reset s with
  | none => none
  | some rest => (lengthBefore? reset rest).map fun n => n + 2 * reset.length

def breakSpan? : Text → Option Nat
  | '\r' :: '\n' :: _ => some 2
  | '\n' :: _ => some 1
  | _ => none

/-- Puts `before` and `after` around every part that `span?` finds, from the left and without
overlap. -/
def wrapParts (span? : Text → Option Nat) (before after : Text) (s : Text) : Text :=
  go s 0
where
  go : Text → Nat → Text
  | [], _ => []
  | c :: rest, 1 => c :: after ++ go rest 0
  | c :: rest, n + 2 => c :: go rest (n + 1)
  | c :: rest, 0 =>
    match span? (c :: rest) with
    | some (n + 2) => before ++ c :: go rest (n + 1)
    | some 1 => before ++ c :: after ++ go rest 0
    | _ => c :: go rest 0

/-- Turns each part of the style on again behind the sequence that turns it off. -/
def turnOnAgain (paints : List Paint) (s : Text) : Text :=
  paints.foldl (fun s p => Text.replace (sequence (Paint.off p)) (sequence (Paint.off p) ++
    sequence (Paint.on p)) s) s

def paint (paints : List Paint) (s : Text) : Text :=
  let before := allOff paints
  let after := allOn paints
  let s :=
    if escapeMark ∈ s then wrapParts resetSpan? before after (turnOnAgain paints s) else s
  after ++ wrapParts breakSpan? before after s ++ before

def mark (paints : List Paint) (s : Text) : Text := allOn paints ++ s ++ reset

def isParameter (c : Char) : Bool := '0' ≤ c && c ≤ '?'

def isIntermediate (c : Char) : Bool := ' ' ≤ c && c ≤ '/'

def isFinal (c : Char) : Bool := '@' ≤ c && c ≤ '~'

def sequenceSpan? : Text → Option Nat
  | '\x1b' :: '[' :: rest =>
    let parameters := rest.takeWhile isParameter
    let rest := rest.dropWhile isParameter
    let intermediates := rest.takeWhile isIntermediate
    match rest.dropWhile isIntermediate with
    | c :: _ =>
      if isFinal c then some (parameters.length + intermediates.length + 3) else none
    | [] => none
  | _ => none

def plain (s : Text) : Text :=
  go s 0
where
  go : Text → Nat → Text
  | [], _ => []
  | _ :: rest, n + 1 => go rest n
  | c :: rest, 0 =>
    match sequenceSpan? (c :: rest) with
    | some (n + 1) => go rest n
    | _ => c :: go rest 0

end Style

scoped instance : Painter := ⟨Style.paint⟩

end Backend
end Masthead
