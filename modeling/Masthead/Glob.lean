import Masthead.Text.Basic

/-! Path patterns. A pattern is a row of tokens, and a path is accepted when it can be cut into
pieces that the tokens take one after the other. -/

namespace Masthead

inductive Glob.Token where
  | literal (c : Char)
  | one
  | name
  | anything
  | segments
deriving DecidableEq, Repr

abbrev Glob := List Glob.Token

namespace Glob

/-- The tokens of a pattern; `bounded` says that the pattern starts here or that a slash came
before. -/
def tokensFrom (bounded : Bool) : Text → Glob
  | '*' :: '*' :: '/' :: rest =>
    if bounded then .segments :: tokensFrom true rest
    else .anything :: .literal '/' :: tokensFrom true rest
  | '*' :: '*' :: rest => .anything :: tokensFrom false rest
  | '*' :: rest => .name :: tokensFrom false rest
  | '?' :: rest => .one :: tokensFrom false rest
  | c :: rest => .literal c :: tokensFrom (c = '/') rest
  | [] => []

def ofText (pattern : Text) : Glob := tokensFrom true pattern

def run (allowed : Char → Bool) (next : Text → Bool) : Text → Bool
  | [] => next []
  | c :: rest => next (c :: rest) || (allowed c && run allowed next rest)

def throughSlash (next : Text → Bool) : Text → Bool
  | [] => false
  | c :: rest => (c == '/' && next rest) || throughSlash next rest

/-- At the end of the pattern the path is over, or a single line feed is left of it. -/
def acceptsEnd (path : Text) : Bool := path.isEmpty || path == ['\n']

def accepts : Glob → Text → Bool
  | [], path => acceptsEnd path
  | .literal _ :: _, [] => false
  | .literal c :: glob, x :: path => x == c && accepts glob path
  | .one :: _, [] => false
  | .one :: glob, x :: path => x != '/' && accepts glob path
  | .name :: glob, path => run (· != '/') (accepts glob) path
  | .anything :: glob, path => run (fun _ => true) (accepts glob) path
  | .segments :: glob, path => accepts glob path || throughSlash (accepts glob) path

end Glob

def matchesGlob (path pattern : Text) : Bool := (Glob.ofText pattern).accepts path

def matchesAnyGlob (path : Text) (patterns : List Text) : Bool := patterns.any (matchesGlob path)

def filterPaths (paths includes excludes : List Text) : List Text :=
  paths.filter fun path => !matchesAnyGlob path excludes && matchesAnyGlob path includes

end Masthead
