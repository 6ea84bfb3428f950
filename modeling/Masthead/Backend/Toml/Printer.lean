import Masthead.Backend.Toml.Document

/-! Writing TOML documents. What was read is written as it was; a table without a title is called by
the way that leads to it. -/

namespace Masthead.Backend.Toml

def Key.below (way : Option Text) (k : Key) : Text :=
  match way with
  | some way => way ++ '.' :: k.raw
  | none => k.raw

namespace Item

def text : Item → Text
  | .blank text => text
  | .comment m => m.indent ++ m.comment ++ m.ending
  | .value _ raw _ => raw
  | .inline _ raw _ => raw
  | .table _ => []
  | .rows .. => []

def line (name : Option Text) (k : Option Key) (item : Item) : Text :=
  match k, item.margin? with
  | some k, some m =>
    m.indent ++ k.below name ++ k.sign ++ item.text ++ m.gap ++ m.comment ++ m.ending
  | _, _ => item.text

end Item

namespace Section

def headerLine (h : Head) (name : Text) (isEmpty : Bool) : Text :=
  let (opening, closing) : Text × Text := if h.isRow then ("[[", "]]") else (['['], [']'])
  let m := h.margin
  let ending := if '\n' ∈ m.ending || isEmpty then m.ending else m.ending ++ ['\n']
  m.indent ++ opening ++ name ++ closing ++ m.gap ++ m.comment ++ ending

def showsHeader (t : Section) (k : Key) : Bool :=
  !t.isFrame || (t.body.any (fun e => !e.2.isTabular && !e.2.isBlank) && !k.isDotted)

def path (h : Head) (way : Option Text) (k : Key) : Text := h.title.getD (k.below way)

mutual

def text (way : Option Text) (k : Key) : Section → Text
  | .mk h b =>
    let name := path h way k
    let header : Text :=
      if showsHeader (.mk h b) k then headerLine h name (Body.names b).isEmpty
      else if h.margin.indent = ['\n'] then ['\n']
      else []
    header ++ entries name k.isDotted b

def entries (name : Text) (isDotted : Bool) : List (Option Key × Item) → Text
  | [] => []
  | (some k, .table t) :: b =>
    let way : Option Text := if t.isFrame && k.isDotted && !isDotted then none else name
    t.text way k ++ entries name isDotted b
  | (some k, .rows _ ts) :: b => rows (k.below (some name)) ts ++ entries name isDotted b
  | (k, item) :: b => item.line (if isDotted then some name else none) k ++ entries name isDotted b

def rows (name : Text) : List Section → Text
  | [] => []
  | .mk h b :: ts =>
    let m := h.margin
    m.indent ++ "[[".toList ++ name ++ "]]".toList ++ m.gap ++ m.comment ++ m.ending ++
      entries name false b ++ rows name ts

end
end Section

namespace Document

def endLine (s : Text) : Text :=
  match s.reverse.dropWhile (· = ' ') with
  | [] => s
  | c :: _ => if c = '\n' then s else s ++ ['\n']

def textWith (s : Text) : Option Key × Item → Text
  | (some k, .table t) =>
    (if '\n' ∈ t.head.margin.indent then s else endLine s) ++ t.text none k
  | (some k, .rows indent ts) =>
    (if '\n' ∈ indent then s else endLine s) ++ Section.rows k.raw ts
  | (k, item) => s ++ item.line none k

def text (d : Document) : Text := d.foldl textWith []

end Document
end Masthead.Backend.Toml
