import Masthead.Proofs.Header.RoundTrip

/-! What a draft without remarks promises of headers. Its separators are made of the right
characters, but only where lines are wider than the comment sign is there room for one of them;
without it no header is found again. -/

namespace Masthead

namespace Header
variable {d : Dialect} {c : Config}

theorem isSeparator_sign : isSeparator d (chop d.commentPrefix) = false := by
  rw [isSeparator]
  cases h : Text.drop? d.commentPrefix (chop d.commentPrefix) with
  | none => rfl
  | some rest =>
    -- the comment sign cannot be longer than itself
    have hrest : rest = [] := by
      have hlength := congrArg List.length (Text.drop?_eq_some h)
      have hchop : (chop d.commentPrefix).length ≤ d.commentPrefix.length := by
        rw [chop, List.length_reverse]
        exact (List.dropWhile_sublist _).length_le.trans_eq (List.length_reverse)
      rw [List.length_append] at hlength
      exact List.eq_nil_of_length_eq_zero (by omega)
    subst hrest
    rfl

theorem lines_generate (hsep : '\n' ∉ separatorLine c) (people : List Contributor) (first : Int)
    (last : Option Int) :
    Text.lines (generate c people first last) =
      separatorLine c :: (Text.lines (Text.unlines (between c people first last)) ++
        [separatorLine c]) := by
  have hlines : Text.lines (separatorLine c) = [separatorLine c] := by
    have h : Text.lines (Text.unlines [separatorLine c]) = [separatorLine c] :=
      Text.lines_unlines (by simp) (by simpa using hsep)
    simpa [Text.unlines, Text.join, List.intercalate] using h
  have hclosed : Text.unlines [separatorLine c] = separatorLine c := by
    simp [Text.unlines, Text.join, List.intercalate]
  have hbetween : between c people first last ≠ [] := by simp [between, columns]
  rw [generate_eq, Text.unlines_cons (by simp), Text.lines_append, hlines,
    Text.unlines_append hbetween (by simp), Text.lines_append, hclosed, hlines]
  rfl

theorem parse?_generate_isSome_iff (hsep : '\n' ∉ separatorLine c) (people : List Contributor)
    (first : Int) (last : Option Int) :
    (parse? d (generate c people first last)).isSome = true ↔
    classify d (separatorLine c) = .separator := by
  rw [parse?_isSome_iff (lines_generate hsep people first last), and_iff_left_iff_imp]
  exact fun h => ⟨separatorLine c, by simp, h⟩

theorem separatorLine_narrow (h : c.width ≤ c.commentPrefix.length) :
    separatorLine c = c.commentPrefix := by
  have hzero : (c.width - c.commentPrefix.length).toNat = 0 := by omega
  rw [separatorLine, Layout.separator, hzero]
  split_ifs <;> simp

end Header

namespace Draft
open Header (parse? generate)
variable {d : Draft} {c : Config}

theorem fill_of_silent (h : d.filled.diagnostics = []) :
    ∀ x ∈ d.filled.separatorChar, x ∈ Config.separatorChars := by
  have hnotes : d.separatorNotes = [] := by
    simp only [filled, notes_eq, List.append_eq_nil_iff] at h
    exact h.2.2.1
  rw [separatorNotes] at hnotes
  split_ifs at hnotes with hempty hother
  simp only [filled, hempty]
  simpa using hother

/-- Headers written under a draft that is frozen without a remark are found again exactly if lines
are wider than the comment sign. -/
theorem silent_found_iff_wide (hne : d.commentPrefixValue ≠ [])
    (hline : '\n' ∉ d.commentPrefixValue) (hc : d.freeze = .ok c) (hsilent : c.diagnostics = [])
    (people : List Contributor) (first : Int) (last : Option Int) :
    (parse? c.dialect (generate c people first last)).isSome = true ↔
    (c.commentPrefix.length : Int) < c.width := by
  obtain rfl := eq_filled hc
  by_cases hwide : (d.filled.commentPrefix.length : Int) < d.filled.width
  · have hframed : d.filled.Framed :=
      ⟨hne, hline, hwide, d.filled_separatorChar_ne_nil, fill_of_silent hsilent⟩
    rw [Header.parse?_generate_isSome_iff (Header.line_separatorLine hframed.ruled hline)]
    exact iff_of_true (Header.classify_separatorLine hframed.ruled rfl) hwide
  · have hsep : Header.separatorLine d.filled = d.filled.commentPrefix :=
      Header.separatorLine_narrow (Int.not_lt.mp hwide)
    rw [Header.parse?_generate_isSome_iff (by rw [hsep]; exact hline), hsep]
    refine iff_of_false ?_ hwide
    rw [Header.classify_eq_separator, show d.filled.commentPrefix =
      d.filled.dialect.commentPrefix from rfl, Header.isSeparator_sign]
    exact Bool.false_ne_true

section Examples

def narrow : Draft := { width := some 2 }

theorem narrow_lost :
    ∃ c, narrow.freeze = .ok c ∧ c.diagnostics = [] ∧
      parse? c.dialect (generate c [.jane] 2025 none) = none :=
  ⟨narrow.filled, freeze_of_writable rfl, by decide, by decide⟩

def starred : Draft where
  width := some 30
  separatorChar := some ['*', '=']
  commentPrefix := some ['#']
  nameColumn := some 20
  spdxLicense := some "MIT".toList
  maxContributors := some 1
  selection := some "recent".toList

theorem silent_found_iff_wide_starred :
    ∃ c c', starred.freeze = .ok c ∧ narrow.freeze = .ok c' ∧ c.diagnostics = [] ∧
    c'.diagnostics = [] ∧
      (parse? c.dialect (generate c [.jane] 2025 none)).isSome = true ∧
      (parse? c'.dialect (generate c' [.jane] 2025 none)).isSome ≠ true := by
  have hstarred : starred.freeze = .ok starred.filled := freeze_of_writable rfl
  have hnarrow : narrow.freeze = .ok narrow.filled := freeze_of_writable rfl
  have hsilent : starred.filled.diagnostics = [] ∧ narrow.filled.diagnostics = [] := by decide
  refine ⟨_, _, hstarred, hnarrow, hsilent.1, hsilent.2, ?_, ?_⟩
  · exact (silent_found_iff_wide (by decide) (by decide) hstarred hsilent.1 [.jane] 2025 none).mpr
      (by decide)
  · exact mt (silent_found_iff_wide (by decide) (by decide) hnarrow hsilent.2 [.jane] 2025 none).mp
      (by decide)

end Examples

end Draft
end Masthead
