import Masthead.Text.Digit
import Masthead.Proofs.Text.Beginning

/-! Decimal digits. The digits written for a number are read as that number. -/

namespace Masthead.Text

theorem decimalValue?_digitChar : ∀ d < 10, decimalValue? (Nat.digitChar d) = some d := by decide

theorem decimalFrom?_append (n : Nat) (s t : Text) :
    decimalFrom? n (s ++ t) = (decimalFrom? n s).bind (decimalFrom? · t) := by
  induction s generalizing n with
  | nil => rfl
  | cons c s ih =>
    simp only [List.cons_append, decimalFrom?]
    cases decimalValue? c with
    | none => rfl
    | some d => exact ih _

theorem decimalFrom?_ofNat (n : Nat) : decimalFrom? 0 (ofNat n) = some n := by
  induction n using Nat.strong_induction_on with
  | _ n ih =>
    by_cases hn : n < 10
    · rw [ofNat, Nat.toDigits_of_lt_base hn]
      simp [decimalFrom?, decimalValue?_digitChar n hn]
    · rw [ofNat, Nat.toDigits_of_base_le (by decide) (by omega), decimalFrom?_append]
      have hq : decimalFrom? 0 (Nat.toDigits 10 (n / 10)) = some (n / 10) := ih _ (by omega)
      simp only [hq, Option.bind_some, decimalFrom?,
        decimalValue?_digitChar _ (Nat.mod_lt n (by decide)), Option.some.injEq]
      omega

theorem ofNat_ne_nil (n : Nat) : ofNat n ≠ [] := Nat.toDigits_ne_nil

theorem decimal?_ofNat (n : Nat) : decimal? (ofNat n) = some n := by
  rw [decimal?, if_neg (by simp [ofNat_ne_nil]), decimalFrom?_ofNat]

theorem dash_notMem_ofNat (n : Nat) : '-' ∉ ofNat n := fun h =>
  absurd (Nat.isDigit_of_mem_toDigits (by decide) (by decide) h) (by decide)

theorem ofNat_injective {m n : Nat} (h : ofNat m = ofNat n) : m = n := by
  have hread := congrArg decimal? h
  rw [decimal?_ofNat, decimal?_ofNat] at hread
  exact Option.some.inj hread

def IsYear (y : Int) : Prop := 1000 ≤ y ∧ y ≤ 9999

instance (y : Int) : Decidable (IsYear y) := inferInstanceAs (Decidable (_ ∧ _))

section IsYear
variable {y z : Int}

theorem IsYear.ne_zero (hy : IsYear y) : y ≠ 0 := by
  have := hy.1
  omega

theorem IsYear.min (hy : IsYear y) (hz : IsYear z) : IsYear (min y z) :=
  ⟨Int.le_min.mpr ⟨hy.1, hz.1⟩, Int.le_trans (Int.min_le_left y z) hy.2⟩

theorem IsYear.max (hy : IsYear y) (hz : IsYear z) : IsYear (max y z) :=
  ⟨Int.le_trans hy.1 (Int.le_max_left y z), Int.max_le.mpr ⟨hy.2, hz.2⟩⟩

end IsYear

theorem length_ofNat {n : Nat} (hl : 1000 ≤ n) (hu : n ≤ 9999) : (ofNat n).length = 4 := by
  have h4 : (ofNat n).length ≤ 4 :=
    (Nat.length_toDigits_le_iff (by decide) (by decide)).mpr (by omega)
  have h3 : ¬ (ofNat n).length ≤ 3 := by
    rw [ofNat, Nat.length_toDigits_le_iff (by decide) (by decide)]
    omega
  omega

theorem ofInt_eq_ofNat {y : Int} (hy : 0 ≤ y) : ofInt y = ofNat y.toNat := by
  obtain ⟨n, rfl⟩ := Int.eq_ofNat_of_zero_le hy
  rfl

theorem length_ofInt {y : Int} (hy : IsYear y) : (ofInt y).length = 4 := by
  obtain ⟨hl, hu⟩ := hy
  rw [ofInt_eq_ofNat (by omega)]
  exact length_ofNat (by omega) (by omega)

theorem isDecimal_of_decimalFrom? {n : Nat} {s : Text} (h : (decimalFrom? n s).isSome = true) :
    ∀ c ∈ s, isDecimal c = true := by
  induction s generalizing n with
  | nil => simp
  | cons c s ih =>
    rw [decimalFrom?] at h
    cases hd : decimalValue? c with
    | none => simp [hd] at h
    | some d =>
      rw [hd] at h
      exact List.forall_mem_cons.mpr ⟨by rw [isDecimal, hd, Option.isSome_some], ih h⟩

theorem isDecimal_of_decimal? {s : Text} (h : (decimal? s).isSome = true) :
    ∀ c ∈ s, isDecimal c = true := by
  rw [decimal?] at h
  split_ifs at h
  · simp at h
  · exact isDecimal_of_decimalFrom? h

theorem isBlank_of_isDecimal {c : Char} (h : isDecimal c = true) : isBlank c = false := by
  have hdigits : ∀ z ∈ decimalZeros, ∀ d < 10, isBlank (Char.ofNat (z + d)) = false := by decide
  rw [isDecimal, decimalValue?, Option.isSome_map, List.find?_isSome] at h
  obtain ⟨z, hz, hc⟩ := h
  simp only [Bool.and_eq_true, decide_eq_true_eq] at hc
  have hdigit := hdigits z hz (c.toNat - z) (by omega)
  rwa [Nat.add_sub_cancel' hc.1, Char.ofNat_toNat] at hdigit

theorem word_of_decimal? {s : Text} (h : (decimal? s).isSome = true) : Word s := by
  refine ⟨?_, fun c hc => isBlank_of_isDecimal (isDecimal_of_decimal? h c hc)⟩
  rintro rfl
  simp [decimal?] at h

theorem word_ofNat (n : Nat) : Word (ofNat n) :=
  word_of_decimal? (by rw [decimal?_ofNat, Option.isSome_some])

theorem word_ofInt (y : Int) : Word (ofInt y) := by
  cases y with
  | ofNat n => exact word_ofNat n
  | negSucc n =>
    refine ⟨by simp [ofInt], fun c hc => ?_⟩
    rcases List.mem_cons.mp hc with rfl | hc
    · decide
    · exact (word_ofNat (n + 1)).solid c hc

end Masthead.Text
