import Masthead.Text.Numeral
import Masthead.Proofs.Text.Decimal

/-! Reading numbers out of texts that may hold anything. A text of digits stops the reading when one
of its digits has no place value, or when there are too many; every other text is read, as a number
or as none. -/

namespace Masthead.Text
variable {s : Text}

def Readable (s : Text) : Prop :=
  isDigits s = true → (∀ c ∈ s, isDecimal c = true) ∧ s.length ≤ digitLimit

theorem decimalFrom?_of_isDecimal (h : ∀ c ∈ s, isDecimal c = true) (n : Nat) :
    (decimalFrom? n s).isSome = true := by
  induction s generalizing n with
  | nil => rfl
  | cons c s ih =>
    obtain ⟨hc, hs⟩ := List.forall_mem_cons.mp h
    obtain ⟨d, hd⟩ := Option.isSome_iff_exists.mp hc
    rw [decimalFrom?, hd]
    exact ih hs _

theorem decimal?_isSome_iff (hne : s ≠ []) :
    (decimal? s).isSome = true ↔ ∀ c ∈ s, isDecimal c = true := by
  refine ⟨isDecimal_of_decimal?, fun h => ?_⟩
  rw [decimal?, if_neg (by simpa using hne)]
  exact decimalFrom?_of_isDecimal h 0

/-- Reading comes to an end exactly with a readable text. -/
theorem numeral_eq_ok_iff (s : Text) : (∃ n, numeral s = .ok n) ↔ Readable s := by
  rw [numeral, Readable]
  by_cases hdigits : isDigits s = true
  · have hne : s ≠ [] := by
      rintro rfl
      cases hdigits
    rw [if_pos hdigits, imp_iff_right hdigits, ← decimal?_isSome_iff hne]
    by_cases hdecimal : (decimal? s).isSome = true
    · have hfront : s.takeWhile isDecimal = s :=
        List.takeWhile_eq_self_iff.mpr (isDecimal_of_decimal? hdecimal)
      obtain ⟨n, hn⟩ := Option.isSome_iff_exists.mp hdecimal
      simp only [hfront, hn, Option.isSome_some, true_and]
      split_ifs with hlong
      · simp [hlong]
      · simpa using hlong
    · have hnone : decimal? s = none := by simpa using hdecimal
      simp only [hnone]
      split_ifs <;> simp
  · rw [if_neg hdigits]
    exact iff_of_true ⟨none, rfl⟩ fun h => absurd h hdigits

theorem filterMapM_numeral_eq_ok_iff (pieces : List Text) :
    (∃ ns, pieces.filterMapM numeral = .ok ns) ↔ ∀ s ∈ pieces, Readable s := by
  induction pieces with
  | nil => exact iff_of_true ⟨[], rfl⟩ (by simp)
  | cons s pieces ih =>
    rw [List.filterMapM_cons, List.forall_mem_cons, ← ih, ← numeral_eq_ok_iff]
    rcases numeral s with _ | _ | n <;> rcases pieces.filterMapM numeral with _ | ns <;>
      simp [bind, Except.bind, pure, Except.pure]

/-! Capital letters -/

theorem isDigit_capital (c : Char) :
    isDigit (capital c) = isDigit c ∧ isDecimal (capital c) = isDecimal c := by
  have hletters : ∀ n < 26, isDigit (Char.ofNat (65 + n)) = isDigit (Char.ofNat (97 + n)) ∧
      isDecimal (Char.ofNat (65 + n)) = isDecimal (Char.ofNat (97 + n)) := by decide
  rw [capital]
  split_ifs with hsmall hdotless hlong
  · have hle : 97 ≤ c.toNat ∧ c.toNat ≤ 122 := hsmall
    have hletter := hletters (c.toNat - 97) (by omega)
    rw [show 65 + (c.toNat - 97) = c.toNat - 32 by
      omega, show 97 + (c.toNat - 97) = c.toNat by omega, Char.ofNat_toNat] at hletter
    exact hletter
  · rw [hdotless]
    decide
  · rw [hlong]
    decide
  · exact ⟨rfl, rfl⟩

theorem readable_capitals (s : Text) : Readable (s.map capital) ↔ Readable s := by
  have hdigits : isDigits (s.map capital) = isDigits s := by
    rw [isDigits, isDigits, List.isEmpty_map, List.all_map]
    congr 2
    funext c
    exact (isDigit_capital c).1
  simp only [Readable, hdigits, List.forall_mem_map, (isDigit_capital _).2, List.length_map]

end Masthead.Text
