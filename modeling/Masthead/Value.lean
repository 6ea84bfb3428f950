import Masthead.Binary64
import Masthead.Calendar
import Masthead.Text.Numeral

/-! Values of configuration files. A table keeps its entries in the order in which their keys first
appeared. -/

namespace Masthead

inductive Value where
  | null
  | bool (b : Bool)
  | integer (n : Int)
  | float (x : Binary64)
  | text (s : Text)
  | date (d : Date)
  | time (t : TimeOfDay)
  | moment (m : Moment)
  | list (items : List Value)
  | table (entries : List (Text × Value))
deriving Repr, BEq

abbrev Table := List (Text × Value)

namespace Table

def get? (t : Table) (key : Text) : Option Value := (t.find? (·.1 = key)).map (·.2)

def has (t : Table) (key : Text) : Bool := t.any (·.1 = key)

def keys (t : Table) : List Text := t.map (·.1)

def insert (t : Table) (key : Text) (v : Value) : Table :=
  if t.has key then t.map fun e => if e.1 = key then (key, v) else e
  else t ++ [(key, v)]

def ofEntries (entries : List (Text × Value)) : Table :=
  entries.foldl (fun t e => t.insert e.1 e.2) []

def follow (t : Table) : List Text → Table
  | [] => t
  | key :: path =>
    match t.get? key with
    | some (.table inner) => follow inner path
    | _ => []

end Table

namespace Value

mutual

def shown : Value → Text
  | .null => "None"
  | .bool b => if b then "True" else "False"
  | .integer n => Text.ofInt n
  | .float x => x.text
  | .text s => Text.quoted s
  | .date d => d.shown
  | .time t => t.shown
  | .moment m => m.shown
  | .list items => '[' :: shownItems items ++ [']']
  | .table entries => '{' :: shownEntries entries ++ ['}']

def shownItems : List Value → Text
  | [] => []
  | [v] => v.shown
  | v :: items => v.shown ++ ", " ++ shownItems items

def shownEntries : List (Text × Value) → Text
  | [] => []
  | [(key, v)] => Text.quoted key ++ ": " ++ v.shown
  | (key, v) :: entries => Text.quoted key ++ ": " ++ v.shown ++ ", " ++ shownEntries entries

def isWritable : Value → Bool
  | .integer n => Text.isWritable n
  | .list items => areWritable items
  | .table entries => entriesWritable entries
  | _ => true

def areWritable : List Value → Bool
  | [] => true
  | v :: items => v.isWritable && areWritable items

def entriesWritable : List (Text × Value) → Bool
  | [] => true
  | (_, v) :: entries => v.isWritable && entriesWritable entries

end

end Value
end Masthead
