import Masthead.Proofs.Fix.Validation

/-! What a run reports. A run that reports no change leaves the text as it is, and a run that brings
a header up to date does not. Only of a header without a year, which is written anew each time,
nothing may be new. -/

namespace Masthead
open Text (IsYear)

namespace Header
open Text (Follows)

theorem append_setOff_eq_iff {new raw tail : Text} (hraw : ∃ c ∈ raw.getLast?, c ≠ '\n')
    (ht : Follows tail) :
    new ++ setOff tail = raw ++ tail ↔ new = raw ∧ Apart tail := by
  obtain ⟨c, hc, hne⟩ := hraw
  have hopen (s : Text) : s ++ ['\n'] ≠ raw := by
    rintro rfl
    exact hne (by simpa using hc.symm)
  cases tail with
  | nil =>
    refine iff_of_false (fun h => ?_) (fun h => ?_)
    · rw [setOff, List.append_nil] at h
      exact hopen (new ++ ['\n']) (by simpa using h)
    · obtain ⟨_, h, -⟩ := h.2
      cases h
  | cons x below =>
    obtain rfl : x = '\n' := ht x rfl
    rw [setOff]
    split_ifs with hblank
    · rw [List.append_cancel_right_eq]
      exact (and_iff_left ⟨below, rfl, (Text.strip_isEmpty_iff _).mp hblank⟩).symm
    · refine iff_of_false (fun h => ?_) (fun h => ?_)
      · exact hopen new (List.append_cancel_right (by simpa using h))
      · obtain ⟨_, hbelow, hrest⟩ := h.2
        obtain rfl := (List.cons.inj hbelow).2
        exact hblank ((Text.strip_isEmpty_iff _).mpr hrest)

theorem mem_generate (c : Config) (people : List Contributor) (first : Int) (last : Option Int) :
    'S' ∈ generate c people first last := by
  have hcolumn : 'S' ∈ licenseStart c := by simp [licenseStart]
  have hline : 'S' ∈ licenseLine c := Layout.mem_line_of_mem (c := ⟨licenseStart c, 0⟩) (by
    rw [licenseColumns_eq]
    exact List.mem_cons_self) hcolumn
  refine Text.mem_unlines (l := licenseLine c) ?_ hline
  simp [render, columns, licenseLine]

end Header

namespace Fixer
open Header (parse? Apart setOff)
open Source (splitPreamble closePreamble)

variable {f : Fixer} {past : Past} {content : Text}

/-- The text has the header that a run writes, set off from what follows, and the header gives no
year to go on from. -/
def Undated (f : Fixer) (past : Past) (content : Text) : Prop :=
  Header.years? f.config.dialect (splitPreamble content).2 = none ∧
    ∃ h tail, parse? f.config.dialect (splitPreamble content).2 = some h ∧
    h.raw = f.header past content ∧
      (splitPreamble content).2 = h.raw ++ tail ∧ Apart tail

theorem put_first_ne {pre body new : Text} (hnew : 'S' ∈ new) :
    closePreamble pre ++ Header.replace body new none ≠ pre ++ body := by
  intro h
  obtain ⟨gap, hgap⟩ : ∃ gap, closePreamble pre = pre ++ gap := by
    rw [closePreamble]
    split_ifs
    · exact ⟨[], (List.append_nil pre).symm⟩
    · exact ⟨['\n'], rfl⟩
  obtain ⟨blank, hblank, hstrip⟩ := Text.exists_eq_stripLeft body
  -- in front of the first character that is no blank there is no room for a header
  have hfront : gap ++ (new ++ ['\n', '\n']) = blank := by
    rw [Header.replace, hgap] at h
    have hall : pre ++ (gap ++ (new ++ ['\n', '\n'])) ++ Text.stripLeft body =
        pre ++ blank ++ Text.stripLeft body := by
      simpa [← hstrip] using h
    exact List.append_cancel_left (List.append_cancel_right hall)
  have hmem : 'S' ∈ blank := by
    rw [← hfront]
    exact List.mem_append_right _ (List.mem_append_left _ hnew)
  exact absurd (hblank 'S' hmem) (by decide)

/-- A text stays the same under a new header exactly if it has this header already, set off from the
rest. -/
theorem put_eq_iff (d : Dialect) {new : Text} (hnew : 'S' ∈ new) :
    Source.joinPreamble (splitPreamble content).1
        (Header.replace (splitPreamble content).2 new (parse? d (splitPreamble content).2)) =
        content ↔
      ∃ h tail, parse? d (splitPreamble content).2 = some h ∧ h.raw = new ∧
        (splitPreamble content).2 = h.raw ++ tail ∧ Apart tail := by
  have hjoin := Source.splitPreamble_join content
  generalize hpre : (splitPreamble content).1 = pre at hjoin ⊢
  generalize hbody : (splitPreamble content).2 = body at hjoin ⊢
  rw [Source.joinPreamble]
  cases hp : parse? d body with
  | none =>
    rw [← hjoin]
    exact iff_of_false (put_first_ne hnew) (by simp)
  | some h =>
    obtain ⟨tail, ht, hsplit, hreplace⟩ := Header.replace_behind hp
    have hclosed : closePreamble pre = pre := by
      rw [← hpre]
      refine (Source.closed_splitPreamble ?_).closePreamble_eq
      obtain ⟨c, hc, -⟩ := Header.parse?_getLast? hp
      rw [hbody, hsplit]
      intro hnil
      simp [List.append_eq_nil_iff.mp hnil] at hc
    rw [hreplace, hclosed, ← hjoin, List.append_cancel_left_eq, hsplit,
      Header.append_setOff_eq_iff (Header.parse?_getLast? hp) ht]
    constructor
    · rintro ⟨rfl, hapart⟩
      exact ⟨h, tail, rfl, rfl, rfl, hapart⟩
    · rintro ⟨h', tail', hh, rfl, hbelow, hapart⟩
      obtain rfl := Option.some.inj hh
      obtain rfl := List.append_cancel_left hbelow
      exact ⟨rfl, hapart⟩

theorem unchanged_of_not_modifies (h : (f.fix past content).action.modifies = false) :
    (f.fix past content).action = .unchanged := by
  rw [fix] at h ⊢
  cases hc : f.current? content with
  | none => simp [hc, Fix.Action.modifies] at h
  | some old =>
    rw [hc] at h
    dsimp only at h ⊢
    split_ifs at h ⊢
    · rfl
    · cases h

theorem Undated.created (h : f.Undated past content) : (f.fix past content).action = .created :=
  created_iff.mpr h.1

/-- Nothing changes under a report of no change, or where the header that is written anew stands
already. -/
theorem text_fix_eq_iff (f : Fixer) (past : Past) (content : Text) :
    (f.fix past content).text = content ↔
      (f.fix past content).action = .unchanged ∨ f.Undated past content := by
  rcases fix_cases f past content with ⟨hmod, htext, -⟩ | ⟨hmod, htext⟩
  · exact iff_of_true htext (Or.inl (unchanged_of_not_modifies hmod))
  · have hchanged : (f.fix past content).action ≠ .unchanged := fun h => by
      rw [h] at hmod
      cases hmod
    have hsolid : 'S' ∈ f.header past content := Header.mem_generate _ _ _ _
    rw [or_iff_right hchanged, htext, put_eq_iff _ hsolid, Undated, iff_and_self]
    rintro ⟨h, tail, hparse, hraw, -⟩
    rw [← current?_eq_none_iff]
    by_contra hcurrent
    obtain ⟨h', hc⟩ := Option.ne_none_iff_exists'.mp hcurrent
    obtain rfl := Option.some.inj (hparse.symm.trans (current?_eq_some.mp hc).1)
    exact hchanged (congrArg Fix.Outcome.action (fix_of_raw_eq hc hraw))

/-- The reported action tells whether the text changes, unless the text has the header that is
written anew and no year is read from it. -/
theorem report_true_iff (f : Fixer) (past : Past) (content : Text) :
    (((f.fix past content).action = .unchanged ↔ (f.fix past content).text = content) ↔
        ¬ f.Undated past content) ∧
      ((f.fix past content).action.modifies = true ↔ (f.fix past content).action ≠ .unchanged) := by
  rw [text_fix_eq_iff]
  refine ⟨⟨fun h hundated => ?_, fun h => (or_iff_left h).symm⟩, fun h heq => ?_, fun h => ?_⟩
  · have hsame := h.mpr (Or.inr hundated)
    rw [hundated.created] at hsame
    cases hsame
  · rw [heq] at h
    cases h
  · by_contra hmod
    exact h (unchanged_of_not_modifies (Bool.eq_false_iff.mpr hmod))

/-- A header that credits somebody whom its columns have room for is not taken for one without a
year. -/
theorem unchanged_iff_of_fits (hc : f.config.Readable) (hne : f.people past content ≠ [])
    (hp : ∀ p ∈ f.people past content, p.Fits f.config) (hfirst : IsYear (f.years past content).1)
    (hlast : IsYear (f.years past content).2) :
    (f.fix past content).action = .unchanged ↔ (f.fix past content).text = content := by
  rw [text_fix_eq_iff, iff_self_or]
  rintro ⟨hyears, h, tail, -, hraw, hbody, hapart⟩
  have hl : ∀ y ∈ some (f.years past content).2, IsYear y := by simpa using hlast
  have hread : Header.ReadBack f.config _ _
      ((f.people past content).take f.config.maxContributors) :=
    Header.readBack_of_fits hc (fun p hmem => hp p (List.mem_of_mem_take hmem)) hfirst hl
  obtain ⟨h', hparse, -, hstart, -⟩ :=
    Header.parse?_generate hc hne (fun p hmem => (hp p hmem).oneLine) hread hfirst hl hapart.follows
  rw [hbody, hraw, Header.years?_eq_none_iff] at hyears
  exact absurd (hstart.symm.trans (hyears h' hparse)) hfirst.ne_zero

section Anonymous

def anonymous : Fixer := { config := Draft.filled { width := some 6 }, year := 2025 }

def unsigned : Text := "//----\n// SPDX-License-Identifier: \n//----\n\nx\n".toList

theorem anonymous_header :
    anonymous.header {} unsigned = "//----\n// SPDX-License-Identifier: \n//----".toList := by
  have hline : Header.licenseLine anonymous.config = "// SPDX-License-Identifier: ".toList :=
    (Header.licenseLine_bare (by decide) (by decide) (by decide)).trans (by decide)
  have hseparator : Header.separatorLine anonymous.config = "//----".toList := by decide
  have hbetween : Header.between anonymous.config (anonymous.people {} unsigned)
      (anonymous.years {} unsigned).1
      (some (anonymous.years {} unsigned).2) = [Header.licenseLine anonymous.config] := by
    rfl
  rw [header, Header.generate_eq, hbetween, hline, hseparator]
  decide

theorem anonymous_created :
    (anonymous.fix {} unsigned).action = .created ∧ (anonymous.fix {} unsigned).text =
    unsigned := by
  have hundated : anonymous.Undated {} unsigned := by
    have hread : (parse? anonymous.config.dialect (splitPreamble unsigned).2).map (·.raw) =
        some "//----\n// SPDX-License-Identifier: \n//----".toList := by decide
    obtain ⟨h, hparse, hraw⟩ := Option.map_eq_some_iff.mp hread
    refine ⟨by decide, h, "\n\nx\n".toList, hparse, by rw [hraw, anonymous_header], ?_,
      Header.apart_newlines _⟩
    rw [hraw]
    decide
  exact ⟨hundated.created, (text_fix_eq_iff _ _ _).mpr (Or.inr hundated)⟩

end Anonymous

end Fixer
end Masthead
