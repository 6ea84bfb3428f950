import Masthead.Glob

/-! Path patterns as regular expressions for whole paths. -/

namespace Masthead.Glob

/-- Characters with a meaning of their own in regular expressions, and those that free layout
skips. -/
def isSpecial (c : Char) : Bool :=
  "+^$.\x7b\x7d()|[]\\?*-&~# \t\n\r\x0b\x0c".toList.contains c

def Token.regex : Token → Text
  | .literal c => if isSpecial c then ['\\', c] else [c]
  | .one => "[^/]"
  | .name => "[^/]*"
  | .anything => ".*"
  | .segments => "(?:.*?/)?"

def regex (glob : Glob) : Text := '^' :: glob.flatMap Token.regex ++ ['$']

end Masthead.Glob
