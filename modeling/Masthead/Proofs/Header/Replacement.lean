import Masthead.Header.Writing
import Masthead.Proofs.Header.Block

/-! Putting a header into a text. Behind a header that was put in stands a line of blanks; from then
on a header takes the place of the old one and nothing else changes. -/

namespace Masthead.Header
open Text (Blank Follows)

def Apart (tail : Text) : Prop := ∃ rest, tail = '\n' :: rest ∧ Blank (rest.takeWhile (· ≠ '\n'))

theorem Apart.follows {tail : Text} (h : Apart tail) : Follows tail := by
  obtain ⟨rest, rfl, -⟩ := h
  exact Text.follows_cons rest

theorem apart_newlines (s : Text) : Apart ('\n' :: '\n' :: s) :=
  ⟨'\n' :: s, rfl, by simp [Blank]⟩

theorem replace_lines {content below : Text} {h : Header} (new : Text)
    (hdrop : (Text.lines content).drop h.endLine = (Text.lines ('\n' :: below)).tail) :
    replace content new (some h) =
      new ++ '\n' ::
        ((if (Text.strip (below.takeWhile (· ≠ '\n'))).isEmpty then [] else ['\n']) ++ below) := by
  rw [Text.lines_newline, List.tail_cons] at hdrop
  have hjoin := Text.unlines_lines below
  rw [Text.lines_eq_cons below] at hdrop hjoin
  simp only [replace, hdrop, hjoin, List.append_assoc, List.cons_append, List.nil_append]

theorem replace_last {content : Text} {h : Header} (new : Text)
    (hdrop : (Text.lines content).drop h.endLine = []) :
    replace content new (some h) = new ++ ['\n', '\n'] := by
  rw [replace, hdrop]
  simp [Text.unlines, Text.join, List.intercalate]

/-- What stood behind a header, as it stands behind the one put in its place: a line of blanks is
added unless there is one. -/
def setOff (tail : Text) : Text :=
  match tail with
  | [] => ['\n', '\n']
  | _ :: below => if (Text.strip (below.takeWhile (· ≠ '\n'))).isEmpty then tail else '\n' :: tail

theorem suffix_setOff (tail : Text) : tail <:+ setOff tail := by
  cases tail with
  | nil => exact List.nil_suffix
  | cons c below =>
    rw [setOff]
    split_ifs
    · exact List.suffix_refl _
    · exact List.suffix_cons _ _

theorem apart_setOff {tail : Text} (h : Follows tail) : Apart (setOff tail) := by
  cases tail with
  | nil => exact apart_newlines []
  | cons c below =>
    obtain rfl : c = '\n' := h c rfl
    rw [setOff]
    split_ifs with hblank
    · exact ⟨below, rfl, (Text.strip_isEmpty_iff _).mp hblank⟩
    · exact apart_newlines below

theorem replace_behind {d : Dialect} {content : Text} {h : Header}
    (hp : parse? d content = some h) :
    ∃ tail, Follows tail ∧ content = h.raw ++ tail ∧
      ∀ new, replace content new (some h) = new ++ setOff tail := by
  obtain ⟨tail, ht, hcontent, hdrop⟩ := parse?_split hp
  refine ⟨tail, ht, hcontent, fun new => ?_⟩
  cases tail with
  | nil => exact replace_last new hdrop
  | cons c below =>
    obtain rfl : c = '\n' := ht c rfl
    rw [replace_lines new hdrop, setOff]
    split_ifs <;> rfl

theorem replace_parsed {d : Dialect} {content : Text} {h : Header} (hp : parse? d content = some h)
    (new : Text) : ∃ tail, Apart tail ∧ replace content new (some h) = new ++ tail := by
  obtain ⟨tail, ht, -, hreplace⟩ := replace_behind hp
  exact ⟨_, apart_setOff ht, hreplace new⟩

theorem exists_replace (d : Dialect) (content new : Text) :
    ∃ tail, Apart tail ∧ replace content new (parse? d content) = new ++ tail := by
  cases hp : parse? d content with
  | none => exact ⟨_, apart_newlines (Text.stripLeft content), by simp [replace]⟩
  | some h => exact replace_parsed hp new

theorem replace_apart {d : Dialect} {raw tail : Text} {h : Header}
    (hp : parse? d (raw ++ tail) = some h) (hraw : h.raw = raw) (ht : Apart tail) (new : Text) :
    replace (raw ++ tail) new (some h) = new ++ tail := by
  obtain ⟨below, -, hsplit, hdrop⟩ := parse?_split hp
  rw [hraw] at hsplit
  obtain rfl := List.append_cancel_left hsplit
  obtain ⟨rest, rfl, hblank⟩ := ht
  rw [replace_lines new hdrop, if_pos ((Text.strip_isEmpty_iff _).mpr hblank), List.nil_append]

end Masthead.Header
