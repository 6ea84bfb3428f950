import Masthead.Text.Basic

/-! Common blocks of two lists of lines. The longest common block comes first, the earliest of
several; the lines before it and behind it are matched in the same way. Lines that are too frequent
in a long list do not start a block. -/

namespace Masthead.Diff

/-- The lines of `a` from `i` and of `b` from `j` on agree for `size` lines. -/
structure Block where
  i : Nat
  j : Nat
  size : Nat
deriving DecidableEq, Repr

structure Window where
  alo : Nat
  ahi : Nat
  blo : Nat
  bhi : Nat
deriving DecidableEq, Repr

def slice (lo hi : Nat) (ls : List Text) : List Text := (ls.take hi).drop lo

def commonLength : List Text → List Text → Nat
  | x :: xs, y :: ys => if x = y then commonLength xs ys + 1 else 0
  | _, _ => 0

def positionsFrom (line : Text) (n : Nat) : List Text → List Nat
  | [] => []
  | x :: xs => if x = line then n :: positionsFrom line (n + 1) xs
      else positionsFrom line (n + 1) xs

def positions (b : List Text) (line : Text) : List Nat :=
  let found := positionsFrom line 0 b
  if 200 ≤ b.length ∧ b.length / 100 + 1 < found.length then [] else found

abbrev Row := List (Nat × Nat)

def nextRow (w : Window) (row : Row) (places : List Nat) : Row :=
  (places.filter fun j => w.blo ≤ j && j < w.bhi).map fun j =>
    (j, (match row.find? (·.1 + 1 = j) with | some e => e.2 | none => 0) + 1)

def improve (i : Nat) (best : Block) (row : Row) : Block :=
  row.foldl (fun best e => if best.size < e.2 then ⟨i + 1 - e.2, e.1 + 1 - e.2, e.2⟩ else best) best

def scan (w : Window) : Nat → Row → Block → List (List Nat) → Block
  | _, _, best, [] => best
  | i, row, best, places :: rest =>
    let row := nextRow w row places
    scan w (i + 1) row (improve i best row) rest

def extend (a b : List Text) (w : Window) (k : Block) : Block :=
  let before := commonLength (slice w.alo k.i a).reverse (slice w.blo k.j b).reverse
  let after := commonLength (slice (k.i + k.size) w.ahi a) (slice (k.j + k.size) w.bhi b)
  ⟨k.i - before, k.j - before, before + k.size + after⟩

def longest (a b : List Text) (places : List (List Nat)) (w : Window) : Block :=
  extend a b w (scan w w.alo [] ⟨w.alo, w.blo, 0⟩ ((places.take w.ahi).drop w.alo))

/-- All blocks in a window; `fuel` is more than the number of lines in it. -/
def blocksIn (a b : List Text) (places : List (List Nat)) : (fuel : Nat) → Window → List Block
  | 0, _ => []
  | fuel + 1, w =>
    let k := longest a b places w
    if k.size = 0 then []
    else
      (if w.alo < k.i ∧ w.blo < k.j then
        blocksIn a b places fuel ⟨w.alo, k.i, w.blo, k.j⟩ else []) ++
      k ::
      (if k.i + k.size < w.ahi ∧ k.j + k.size < w.bhi then
        blocksIn a b places fuel ⟨k.i + k.size, w.ahi, k.j + k.size, w.bhi⟩ else [])

def joinBlocks : List Block → List Block
  | [] => []
  | k :: ks =>
    match joinBlocks ks with
    | k' :: rest =>
      if k.i + k.size = k'.i ∧ k.j + k.size = k'.j then ⟨k.i, k.j, k.size + k'.size⟩ :: rest
      else k :: k' :: rest
    | [] => [k]

def blocks (a b : List Text) : List Block :=
  joinBlocks (blocksIn a b (a.map (positions b)) (a.length + 1) ⟨0, a.length, 0, b.length⟩)

end Masthead.Diff
