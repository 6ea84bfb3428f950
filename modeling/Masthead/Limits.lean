/-! What the system sets a limit to. -/

namespace Masthead

class Limits where
  /-- How many characters of a text fit into the memory. -/
  memory : Nat
  /-- How deep the values of a JSON document are followed into each other. -/
  depth : Nat
  /-- No text has more characters than can be counted. -/
  memory_le : memory ≤ 9223372036854775807

end Masthead
