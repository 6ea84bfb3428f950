import Masthead.Header

/-! Headers read under a dialect with any indentation. The pattern of a line that credits a further
contributor repeats a blank, and there is no such pattern for more blanks than can be counted. Under
the dialects of configurations nothing is refused. -/

namespace Masthead

namespace Dialect

def repetitionLimit : Nat := 4294967295

inductive Fault where
  | tooManyBlanks
deriving DecidableEq, Repr

def Fault.message : Fault → Text
  | .tooManyBlanks => "the repetition number is too large"

/-- The dialect, if something can be read under it; where nothing is to be read, any will do. -/
def forReading (d : Dialect) (reads : Bool) : Except Fault Dialect :=
  if reads && decide ((repetitionLimit : Int) ≤ d.indent) then .error .tooManyBlanks else .ok d

end Dialect

namespace Header

def classifyAll (d : Dialect) (lines : List Text) : Except Dialect.Fault (List Line) :=
  (d.forReading (!lines.isEmpty)).map fun d => lines.map (classify d)

def read (d : Dialect) (content : Text) : Except Dialect.Fault (Option Header) :=
  (d.forReading (!content.isEmpty)).map fun d => parse? d content

theorem forReading_dialect (c : Config) (reads : Bool) :
    c.dialect.forReading reads = .ok c.dialect := by
  have hindent : c.dialect.indent < Dialect.repetitionLimit := by
    simp only [Config.dialect, Config.defaultIndent, Dialect.repetitionLimit]
    omega
  rw [Dialect.forReading, if_neg (by simp [hindent])]

theorem read_dialect (c : Config) (content : Text) :
    read c.dialect content = .ok (parse? c.dialect content) := by
  rw [read, forReading_dialect]
  rfl

theorem classifyAll_dialect (c : Config) (lines : List Text) :
    classifyAll c.dialect lines = .ok (lines.map (classify c.dialect)) := by
  rw [classifyAll, forReading_dialect]
  rfl

end Header
end Masthead
