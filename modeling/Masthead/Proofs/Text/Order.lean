import Masthead.Text.Basic
import Mathlib.Data.Char
import Mathlib.Data.List.Lex
import Mathlib.Data.List.Sort

/-! The order of texts is the lexicographic one by code points. Texts that are sorted and stand once
each are determined by what they are. -/

namespace Masthead.Text

theorem toNat_lt_iff {c d : Char} : c.toNat < d.toNat ↔ c < d := UInt32.lt_iff_toNat_lt.symm

theorem le_iff (s t : Text) : le s t = true ↔ s ≤ t := by
  rw [le_iff_lt_or_eq]
  induction s generalizing t with
  | nil => cases t <;> simp [le]
  | cons c s ih =>
    cases t with
    | nil => simp [le]
    | cons d t =>
      rw [le, Bool.or_eq_true, Bool.and_eq_true, decide_eq_true_eq, beq_iff_eq, ih, toNat_lt_iff,
        List.cons_lt_cons_iff, List.cons_eq_cons]
      tauto

theorem pairwise_sort (found : List Text) : (sort found).Pairwise (· ≤ ·) := by
  have hsorted : (sort found).Pairwise fun s t => le s t = true := by
    refine List.pairwise_mergeSort (fun s t u hst htu => ?_) (fun s t => ?_) found
    · rw [le_iff] at hst htu ⊢
      exact hst.trans htu
    · rw [Bool.or_eq_true, le_iff, le_iff]
      exact le_total s t
  exact hsorted.imp fun {s t} h => (le_iff s t).mp h

theorem pairwise_sort_of_nodup {found : List Text} (h : found.Nodup) :
    (sort found).Pairwise (· < ·) := by
  have hdistinct : (sort found).Nodup := (List.mergeSort_perm found le).nodup_iff.mpr h
  exact (pairwise_sort found).imp₂ (fun s t hle hne => lt_of_le_of_ne hle hne) hdistinct

theorem eq_of_increasing {found found' : List Text} (h : found.Pairwise (· < ·))
    (h' : found'.Pairwise (· < ·)) (hmem : ∀ s, s ∈ found ↔ s ∈ found') : found = found' :=
  List.Pairwise.eq_of_mem_iff h h' hmem

example : sort ["src/b".toList, "src".toList, "Z".toList, "src/a".toList] =
    ["Z".toList, "src".toList, "src/a".toList, "src/b".toList] := by cbv

end Masthead.Text
