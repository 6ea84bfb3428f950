/-! Text as a list of code points: blanks, stripping, and splitting into lines. -/

namespace Masthead

/-- A text is the sequence of its code points; every length, column and cut counts code points. -/
abbrev Text := List Char

instance : Coe String Text := ⟨String.toList⟩

namespace Text

def isBlank (c : Char) : Bool :=
  let n := c.toNat
  (9 ≤ n && n ≤ 13) || (28 ≤ n && n ≤ 32) || n == 0x85 || n == 0xa0 || n == 0x1680 ||
    (0x2000 ≤ n && n ≤ 0x200a) || n == 0x2028 || n == 0x2029 || n == 0x202f || n == 0x205f ||
    n == 0x3000

def stripLeft (s : Text) : Text := s.dropWhile isBlank

def stripRight (s : Text) : Text := (s.reverse.dropWhile isBlank).reverse

def strip (s : Text) : Text := stripRight (stripLeft s)

def spaces (n : Nat) : Text := List.replicate n ' '

def splitOn (sep : Char) : Text → List Text
  | [] => [[]]
  | c :: rest =>
    if c = sep then [] :: splitOn sep rest
    else match splitOn sep rest with
      | [] => [[c]]
      | piece :: pieces => (c :: piece) :: pieces

def cutAt? (sep : Char) : Text → Option (Text × Text)
  | [] => none
  | c :: rest =>
    if c = sep then some ([], rest)
    else (cutAt? sep rest).map fun (before, after) => (c :: before, after)

def join (sep : Text) (pieces : List Text) : Text := List.intercalate sep pieces

def lines (s : Text) : List Text := splitOn '\n' s

def unlines (ls : List Text) : Text := join ['\n'] ls

def words (s : Text) : List Text :=
  go s []
where
  go : Text → Text → List Text
  | [], [] => []
  | [], word => [word.reverse]
  | c :: rest, word =>
    if isBlank c then (if word.isEmpty then go rest [] else word.reverse :: go rest [])
    else go rest (c :: word)

def isLineBreak (c : Char) : Bool :=
  let n := c.toNat
  (10 ≤ n && n ≤ 13) || (28 ≤ n && n ≤ 30) || n == 0x85 || n == 0x2028 || n == 0x2029

/-- Lines by any convention; a carriage return and line feed end one line, and no line follows the
last break. -/
def looseLines (s : Text) : List Text :=
  go s []
where
  go : Text → Text → List Text
  | [], [] => []
  | [], line => [line.reverse]
  | '\r' :: '\n' :: rest, line => line.reverse :: go rest []
  | c :: rest, line => if isLineBreak c then line.reverse :: go rest [] else go rest (c :: line)

def drop? : (start s : Text) → Option Text
  | [], s => some s
  | _ :: _, [] => none
  | p :: start, c :: s => if p = c then drop? start s else none

def startsWith (s start : Text) : Bool := (drop? start s).isSome

def contains (s part : Text) : Bool :=
  match s with
  | [] => part.isEmpty
  | c :: rest => startsWith (c :: rest) part || contains rest part

def replaceChars (f : Char → Text) (s : Text) : Text := s.flatMap f

def replace (old new : Text) (s : Text) : Text :=
  go s 0
where
  go : Text → Nat → Text
  | [], _ => []
  | _ :: rest, skip + 1 => go rest skip
  | c :: rest, 0 =>
    if !old.isEmpty && startsWith (c :: rest) old then new ++ go rest (old.length - 1)
    else c :: go rest 0

/-- The first `n` characters; a negative `n` counts from the end. -/
def takeSigned (n : Int) (s : Text) : Text :=
  s.take (if 0 ≤ n then n.toNat else s.length - (-n).toNat)

def le : Text → Text → Bool
  | [], _ => true
  | _ :: _, [] => false
  | c :: s, d :: t => c.toNat < d.toNat || (c == d && le s t)

def sort (ts : List Text) : List Text := ts.mergeSort le

end Text
end Masthead
