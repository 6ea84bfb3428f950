import Masthead.Config
import Mathlib.Order.Basic
import Mathlib.Tactic.SplitIfs

/-! Freezing a draft. It fails only where a remark has too long a number to put into words, so a
draft without remarks is always frozen. There is always something to fill separators with, and a
license has its page. -/

namespace Masthead

theorem Text.isWritable_of_lt {n : Int} (h : n.natAbs < 1000) : isWritable n = true := by
  -- the power that is the limit is too large to be computed
  have hgrows {m : Nat} (hm : 3 ≤ m) : n.natAbs < Nat.pow 10 m :=
    Nat.lt_of_lt_of_le h (Nat.pow_le_pow_right (n := 10) (by decide) hm)
  rw [isWritable, decide_eq_true_eq]
  exact hgrows (by decide)

namespace Draft
variable {d : Draft} {c : Config}

theorem freeze_eq_ok_iff : d.freeze = .ok c ↔ d.worded.all Text.isWritable = true ∧
    c = d.filled := by
  rw [freeze]
  split_ifs with h
  · rw [Except.ok.injEq, and_iff_right h, eq_comm]
  · exact iff_of_false nofun fun ⟨hall, _⟩ => h hall

theorem eq_filled (h : d.freeze = .ok c) : c = d.filled := (freeze_eq_ok_iff.mp h).2

theorem freeze_of_writable (h : d.worded.all Text.isWritable = true) : d.freeze = .ok d.filled :=
  freeze_eq_ok_iff.mpr ⟨h, rfl⟩

theorem freeze_of_small (h : ∀ n ∈ d.worded, n.natAbs < 1000) : d.freeze = .ok d.filled :=
  freeze_of_writable (List.all_eq_true.mpr fun n hn => Text.isWritable_of_lt (h n hn))

theorem remark_eq_nil_iff {p : Prop} [Decidable p] (x : Diagnostic) :
    (if p then [x] else []) = [] ↔ ¬ p := by
  split_ifs with h <;> simp [h]

theorem widthNotes_eq_nil_iff : d.widthNotes = [] ↔ 0 ≤ d.widthValue :=
  (remark_eq_nil_iff _).trans Int.not_lt

theorem columnNotes_eq_nil_iff :
    d.columnNotes = [] ↔ (Config.defaultIndent : Int) ≤
    Config.room d.nameColumnValue d.commentPrefixValue :=
  (remark_eq_nil_iff _).trans Int.not_lt

theorem maxContributorsNotes_eq_nil_iff :
    d.maxContributorsNotes = [] ↔ 0 ≤ d.maxContributorsValue :=
  (remark_eq_nil_iff _).trans Int.not_lt

theorem notes_eq (d : Draft) :
    d.notes = d.widthNotes ++
    (d.separatorNotes ++ (d.columnNotes ++ (d.maxContributorsNotes ++ d.selectionNotes))) := by
  simp only [notes, remarks, List.flatMap_cons, List.flatMap_nil, List.append_nil]

theorem worded_eq (d : Draft) :
    d.worded = (if d.widthValue < 0 then [d.widthValue] else []) ++
      ((if Config.room d.nameColumnValue d.commentPrefixValue < Config.defaultIndent then
        [d.nameColumnValue, Config.room d.nameColumnValue d.commentPrefixValue] else []) ++
      if d.maxContributorsValue < 0 then [d.maxContributorsValue] else []) := by
  simp only [worded, remarks, List.flatMap_cons, List.flatMap_nil, List.append_nil, List.nil_append]

theorem freeze_of_silent (h : d.notes = []) : d.freeze = .ok d.filled := by
  rw [notes_eq, List.append_eq_nil_iff, List.append_eq_nil_iff, List.append_eq_nil_iff,
    List.append_eq_nil_iff, widthNotes_eq_nil_iff, columnNotes_eq_nil_iff,
    maxContributorsNotes_eq_nil_iff] at h
  obtain ⟨hwidth, -, hcolumn, hlimit, -⟩ := h
  refine freeze_of_writable ?_
  rw [worded_eq, if_neg (Int.not_lt.mpr hwidth), if_neg (Int.not_lt.mpr hcolumn),
    if_neg (Int.not_lt.mpr hlimit)]
  rfl

theorem filled_separatorChar_ne_nil (d : Draft) : d.filled.separatorChar ≠ [] := by
  simp only [filled]
  split_ifs with h
  · decide
  · simpa using h

theorem licenseUrl_filled (h : d.filled.licenseUrl = []) :
    License.page d.filled.spdxLicense = [] := by
  simp only [filled] at h ⊢
  split_ifs at h with hempty
  · exact h
  · exact absurd (List.isEmpty_iff.mpr h) hempty

end Draft
end Masthead
