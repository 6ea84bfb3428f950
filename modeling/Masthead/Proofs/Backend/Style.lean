import Masthead.Backend.Style
import Masthead.Proofs.Paint
import Masthead.Proofs.Text.Beginning

/-! The painter of this library puts in control sequences and nothing else. -/

namespace Masthead
namespace Backend
open Painter (isShown)
open scoped Masthead.Backend

section
variable {old new before after : Text}

theorem filter_replace_go (hold : old.filter isShown = []) (hnew : new.filter isShown = [])
    (s : Text) (skip : Nat) :
    (Text.replace.go old new s skip).filter isShown = (s.drop skip).filter isShown := by
  fun_induction Text.replace.go old new s skip with
  | case1 => rw [List.drop_nil]
  | case2 _ rest skip ih => exact ih
  | case3 d rest hstarts ih =>
    simp only [Bool.and_eq_true, Bool.not_eq_true', List.isEmpty_eq_false_iff, Text.startsWith]
      at hstarts
    obtain ⟨hne, hdrop⟩ := hstarts
    obtain ⟨r, hr⟩ := Option.isSome_iff_exists.mp hdrop
    have hrest := Text.drop?_eq_some hr
    obtain ⟨e, old, rfl⟩ := List.exists_cons_of_ne_nil hne
    rw [List.cons_append] at hrest
    obtain ⟨rfl, rfl⟩ := List.cons.inj hrest
    rw [List.filter_append, hnew, ih, List.length_cons, Nat.add_sub_cancel, List.drop_left,
      List.drop_zero, ← List.cons_append, List.filter_append, hold]
  | case4 d rest _ ih =>
    rw [List.filter_cons, ih]
    simp only [List.drop_zero, List.filter_cons]

theorem filter_replace (hold : old.filter isShown = []) (hnew : new.filter isShown = [])
    (s : Text) :
    (Text.replace old new s).filter isShown = s.filter isShown := filter_replace_go hold hnew s 0

namespace Style

theorem filter_wrapParts_go (span? : Text → Option Nat) (hbefore : before.filter isShown = [])
    (hafter : after.filter isShown = []) (s : Text) (n : Nat) :
    (wrapParts.go span? before after s n).filter isShown = s.filter isShown := by
  fun_induction wrapParts.go span? before after s n <;>
    simp only [List.filter_nil, List.filter_cons, List.filter_append, List.append_assoc,
      List.cons_append, List.nil_append, *]

theorem filter_wrapParts (span? : Text → Option Nat) (hbefore : before.filter isShown = [])
    (hafter : after.filter isShown = []) (s : Text) :
    (wrapParts span? before after s).filter isShown = s.filter isShown :=
  filter_wrapParts_go span? hbefore hafter s 0

end Style
end

namespace Style

theorem filter_sequence (code : Nat) : (sequence code).filter isShown = [] := by
  have hdigits : (Text.ofNat code).filter isShown = [] := List.filter_eq_nil_iff.mpr fun c hc => by
    have hdigit : c.isDigit = true := Nat.isDigit_of_mem_toDigits (by decide) (by decide) hc
    simp [isShown, hdigit]
  rw [sequence, List.cons_append, List.cons_append, List.filter_cons_of_neg (by decide),
    List.filter_cons_of_neg (by decide), List.filter_append, hdigits]
  rfl

theorem filter_flatMap_sequence (code : Paint → Nat) (paints : List Paint) :
    (paints.flatMap fun p => sequence (code p)).filter isShown = [] := by
  rw [List.filter_flatMap, List.flatMap_eq_nil_iff]
  exact fun p _ => filter_sequence _

theorem filter_turnOnAgain (paints : List Paint) (s : Text) :
    (turnOnAgain paints s).filter isShown = s.filter isShown := by
  induction paints generalizing s with
  | nil => rfl
  | cons p paints ih =>
    refine (ih _).trans (filter_replace (filter_sequence _) ?_ s)
    rw [List.filter_append, filter_sequence, filter_sequence, List.append_nil]

theorem onlyMarks : Painter.OnlyMarks := by
  intro paints s
  have hon : (allOn paints).filter isShown = [] := filter_flatMap_sequence Paint.on paints
  have hoff : (allOff paints).filter isShown = [] := filter_flatMap_sequence Paint.off paints
  change (Style.paint paints s).filter isShown = _
  rw [paint, List.filter_append, List.filter_append, hon, hoff, filter_wrapParts _ hoff hon,
    List.nil_append, List.append_nil]
  split_ifs
  · rw [filter_wrapParts _ hoff hon, filter_turnOnAgain]
  · rfl

end Style
end Backend
end Masthead
