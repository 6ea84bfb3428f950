import Masthead.Text.Points
import Mathlib.Tactic.SplitIfs

/-! Texts among those that may hold half of a pair of units: they are the ones without such a
half. -/

namespace Masthead.Points
variable {s : Points} {t : Text}

theorem half?_cons_char (c : Char) : half? (.char c :: s) = none ↔ half? s = none := by
  rw [half?, half?, List.dropWhile_cons_of_pos (by rfl)]
  split <;> simp

theorem half?_cons_half (unit : Nat) : half? (.half unit :: s) ≠ none := by
  simp [half?, Text.Point.isHalf]

theorem half?_eq_none_iff : half? s = none ↔ s = ofText s.chars := by
  induction s with
  | nil => exact iff_of_true rfl rfl
  | cons x s ih =>
    cases x with
    | half unit =>
      refine iff_of_false (half?_cons_half unit) fun h => ?_
      have hmem : Text.Point.half unit ∈ ofText (chars (.half unit :: s)) := h ▸ List.mem_cons_self
      obtain ⟨c, -, hc⟩ := List.mem_map.mp hmem
      cases hc
    | char c =>
      rw [half?_cons_char, ih]
      exact ⟨congrArg (Text.Point.char c :: ·), fun h => (List.cons.inj h).2⟩

@[simp]
theorem chars_ofText (t : Text) : chars (ofText t) = t := by
  rw [chars, ofText, List.filterMap_map]
  exact List.filterMap_some

theorem ofText_injective : Function.Injective ofText := Function.LeftInverse.injective chars_ofText

@[simp]
theorem half?_ofText (t : Text) : half? (ofText t) = none := by
  rw [half?_eq_none_iff, chars_ofText]

theorem text?_eq_some_iff : s.text? = some t ↔ s = ofText t := by
  rw [text?]
  split_ifs with hwhole
  · rw [Option.isNone_iff_eq_none, half?_eq_none_iff] at hwhole
    rw [Option.some.injEq]
    exact ⟨fun h => by rw [hwhole, h], fun h => by rw [h, chars_ofText]⟩
  · refine iff_of_false nofun fun h => hwhole ?_
    rw [h, half?_ofText]
    rfl

theorem text?_ofText (t : Text) : text? (ofText t) = some t := text?_eq_some_iff.mpr rfl

end Masthead.Points
