import Masthead.Text.Points
import Masthead.Value

/-! TOML documents in the hands of a library that reads, changes and writes them. What is said here
is which documents the program has from the library, and what it does with them. -/

namespace Masthead

structure Foreign where
  kind : Text
  message : Text
deriving DecidableEq, Repr

namespace Toml

inductive Fault where
  | malformed
  | foreign (e : Foreign)
deriving DecidableEq, Repr

inductive Shape where
  | table
  | other
deriving DecidableEq, Repr

/-- A value for a document. A text in it need not be one that can be written. -/
inductive Content where
  | value (v : Value)
  | points (s : Points)

inductive Entry where
  | frame
  | table (values : List (Text × Content))
  | plain (value : Content)

class Library where
  Document : Type
  parse : Text → Except Fault Document
  data : Document → Except Foreign Table
  shape? : Document → (path : List Text) → Except Foreign (Option Shape)
  put : Document → (way : List Text) → (key : Text) → Entry → Except Foreign Document
  text : Document → Except Foreign Points

inductive Obstacle where
  | notTable (key : Text)
  | present
  | foreign (e : Foreign)
deriving DecidableEq, Repr

variable [Library]

abbrev Document := Library.Document

def asked {α : Type} (r : Except Foreign α) : Except Obstacle α := r.mapError .foreign

def parse (s : Text) : Except Fault Table :=
  (Library.parse s).bind fun d => (Library.data d).mapError .foreign

namespace Document

def opened (d : Document) (way : List Text) : List Text → Except Obstacle Document
  | [] => .ok d
  | key :: keys => do
    let d ←
      if (← asked (Library.shape? d (way ++ [key]))).isNone
      then asked (Library.put d way key .frame)
      else pure d
    if (← asked (Library.shape? d (way ++ [key]))) = some .table then opened d (way ++ [key]) keys
    else .error (.notTable key)

/-- The document with the values in a table under `key`, unless something is there. -/
def addUnder (d : Document) (way : List Text) (key : Text) (values : List (Text × Content)) :
    Except Obstacle Document := do
  let d ← opened d [] way
  if (← asked (Library.shape? d (way ++ [key]))).isSome then .error .present
  else asked (Library.put d way key (.table values))

def addPlain (d : Document) (values : List (Text × Content)) : Except Obstacle Document := do
  if (← asked (Library.data d)).isEmpty then
    asked (values.foldlM (fun d e => Library.put d [] e.1 (.plain e.2)) d)
  else .error .present

def add (d : Document) (path : List Text) (values : List (Text × Content)) :
    Except Obstacle Document :=
  match path.getLast? with
  | none => addPlain d values
  | some key => addUnder d path.dropLast key values

end Document
end Toml
end Masthead
