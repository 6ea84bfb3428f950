import Masthead.Limits

/-! The limits that the program works with. -/

namespace Masthead.Backend

scoped instance : Limits := ⟨1000000000, 988, by decide⟩

end Masthead.Backend
