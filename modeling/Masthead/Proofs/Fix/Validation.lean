import Masthead.Header.Validation
import Masthead.Proofs.Fix.Stability

/-! What a check makes of headers that are fixed. A fixed header has nothing wrong with it but a
license of several words, of which only the first is read. A header that a check accepts is brought
up to date exactly if a line of it gives a year, and written anew otherwise. -/

namespace Masthead
open Text (IsYear)

namespace Header

section Issues
variable {h : Header} {c : Config} {year : Int}

theorem issues_eq_nil_iff :
    h.issues c year = [] ↔
      h.yearStart ≤ year ∧ h.yearEnd ≤ year ∧ h.yearStart ≤ h.yearEnd ∧
        (c.spdxLicense = [] ∨ h.spdxLicense = some c.spdxLicense) ∧ h.contributors ≠ [] := by
  simp only [issues, List.append_eq_nil_iff, ite_eq_right_iff, List.cons_ne_nil, imp_false,
    Int.not_lt, Bool.and_eq_true, Bool.not_eq_true', List.isEmpty_eq_false_iff, bne_iff_ne, ne_eq,
    not_and, not_not, List.isEmpty_iff]
  tauto

theorem issues_of_years (hstart : h.yearStart ≤ year) (hend : h.yearEnd = year)
    (hp : h.contributors ≠ []) :
    h.issues c year =
      if c.spdxLicense = [] ∨ h.spdxLicense = some c.spdxLicense then []
      else [.wrongLicense h.spdxLicense c.spdxLicense] := by
  have hlater : ¬ year < h.yearStart := by omega
  have hpast : ¬ year < h.yearEnd := by omega
  have horder : ¬ h.yearEnd < h.yearStart := by omega
  simp only [issues, hlater, hpast, horder, if_false, List.isEmpty_iff, hp, List.nil_append,
    List.append_nil]
  by_cases hempty : c.spdxLicense = []
  · simp [hempty]
  · by_cases hsame : h.spdxLicense = some c.spdxLicense
    · simp [hsame]
    · simp [hempty, hsame]

end Issues

section License
variable {c : Config}

theorem trimmed_license (hc : c.Writable) (hstrip : Text.strip c.spdxLicense = c.spdxLicense)
    (hne : c.spdxLicense ≠ []) : Trimmed c.spdxLicense where
  ne_nil := hne
  line := hc.license_line
  head := hstrip ▸ Text.head_strip c.spdxLicense
  last := hstrip ▸ Text.last_strip c.spdxLicense

theorem parse?_generate_license (hc : c.Readable)
    (hstrip : Text.strip c.spdxLicense = c.spdxLicense) {people : List Contributor}
    (hne : people ≠ []) (hp : ∀ p ∈ people, p.Fits c) {first : Int} {last : Option Int}
    (hf : IsYear first) (hl : ∀ y ∈ last, IsYear y) {below : Text} (hb : Text.Follows below) :
    ∃ h, parse? c.dialect (generate c people first last ++ below) = some h ∧ h.yearStart = first ∧
      h.yearEnd = last.getD first ∧ h.contributors = people.take c.maxContributors ∧
      (c.spdxLicense ≠ [] → h.spdxLicense = some (word c.spdxLicense)) := by
  refine ⟨_, parse?_generate_absorb hc hne hp hf hl hb, ?_⟩
  by_cases hlicense : c.spdxLicense = []
  · rcases classify_licenseLine hc.toWritable with hx | ⟨_, _, _, hx⟩ <;> rw [hx] <;>
      exact ⟨rfl, rfl, rfl, fun h => absurd hlicense h⟩
  · obtain ⟨url, maintainer, hx⟩ :=
      classify_licenseLine_word hc.toWritable (trimmed_license hc.toWritable hstrip hlicense)
    rw [hx]
    exact ⟨rfl, rfl, rfl, fun _ => rfl⟩

end License

section Years
variable {h : Header} {d : Dialect}

theorem absorb_yearStart (h : Header) (x : Line) :
    (h.absorb x).yearStart ≠ 0 ↔
      h.yearStart ≠ 0 ∨ ∃ first last who, x = .copyright first last who ∧ first ≠ 0 := by
  cases x with
  | copyright first last who =>
    by_cases h0 : h.yearStart = 0
    · simp [absorb, h0]
    · simp [absorb, h0]
  | _ => simp [absorb]

theorem foldl_absorb_yearStart (xs : List Line) :
    (xs.foldl absorb h).yearStart ≠ 0 ↔
      h.yearStart ≠ 0 ∨ ∃ first last who, Line.copyright first last who ∈ xs ∧ first ≠ 0 := by
  induction xs generalizing h with
  | nil => simp
  | cons x xs ih =>
    rw [List.foldl_cons, ih, absorb_yearStart, or_assoc]
    refine or_congr_right ⟨?_, ?_⟩
    · rintro (⟨first, last, who, rfl, h0⟩ | ⟨first, last, who, hmem, h0⟩)
      · exact ⟨first, last, who, List.mem_cons_self, h0⟩
      · exact ⟨first, last, who, List.mem_cons_of_mem _ hmem, h0⟩
    · rintro ⟨first, last, who, hmem, h0⟩
      rcases List.mem_cons.mp hmem with hx | hmem
      · exact Or.inl ⟨first, last, who, hx.symm, h0⟩
      · exact Or.inr ⟨first, last, who, hmem, h0⟩

theorem years?_eq_none_iff {content : Text} :
    years? d content = none ↔ ∀ h, parse? d content = some h → h.yearStart = 0 := by
  rw [years?]
  cases parse? d content with
  | none => simp
  | some h => simp

end Years
end Header

namespace Fixer
variable {f : Fixer} {past : Past} {content : Text}

theorem years_le (past : Past) (hold : ∀ h ∈ f.current? content, h.yearStart ≤ f.year ∧
    h.yearEnd ≤ f.year) :
    (f.years past content).1 ≤ f.year ∧ (f.years past content).2 = f.year := by
  rw [years]
  cases hc : f.current? content with
  | none => exact ⟨Int.min_le_right _ _, rfl⟩
  | some old =>
    obtain ⟨hstart, hend⟩ := hold old hc
    exact ⟨hstart, Int.max_eq_right hend⟩

theorem years_of_current? (hyear : IsYear f.year)
    (hold : ∀ h, Header.parse? f.config.dialect (Source.splitPreamble content).2 = some h →
      (h.yearStart ≠ 0 → 1000 ≤ h.yearStart ∧ h.yearStart ≤ f.year) ∧
        (h.yearEnd ≠ 0 → 1000 ≤ h.yearEnd ∧ h.yearEnd ≤ f.year)) :
    ∀ h ∈ f.current? content,
      (IsYear h.yearStart ∧ (h.yearEnd ≠ 0 → IsYear h.yearEnd)) ∧ h.yearStart ≤ f.year ∧
      h.yearEnd ≤ f.year := by
  intro h hh
  obtain ⟨hparse, hy⟩ := current?_eq_some.mp hh
  obtain ⟨hstart, hend⟩ := hold h hparse
  have hyearOf {y : Int} (hlow : 1000 ≤ y) (hhigh : y ≤ f.year) : IsYear y :=
    ⟨hlow, Int.le_trans hhigh hyear.2⟩
  refine ⟨⟨hyearOf (hstart hy).1 (hstart hy).2, fun h0 => hyearOf (hend h0).1 (hend h0).2⟩,
    (hstart hy).2, ?_⟩
  by_cases h0 : h.yearEnd = 0
  · rw [h0]
    exact Int.le_trans (by decide) hyear.1
  · exact (hend h0).2

/-- A header that was fixed is valid if the license is one word. Of several words only the first is
read, and taken for another license. -/
theorem validate_fix (hc : f.config.Readable) (hsign : Source.Bare f.config.commentPrefix)
    (hlicense : Text.strip f.config.spdxLicense = f.config.spdxLicense) (hyear : IsYear f.year)
    (hpast : ∀ y ∈ past.years, IsYear y.1)
    (hold : ∀ h, Header.parse? f.config.dialect (Source.splitPreamble content).2 = some h →
      (h.yearStart ≠ 0 → 1000 ≤ h.yearStart ∧ h.yearStart ≤ f.year) ∧
        (h.yearEnd ≠ 0 → 1000 ≤ h.yearEnd ∧ h.yearEnd ≤ f.year) ∧ ∀ p ∈ h.contributors,
        p.Fits f.config)
    (hchosen : ∀ p ∈ f.config.choose past.ranked, p.Fits f.config)
    (huser : ∀ p ∈ f.user, p.Fits f.config)
    (hsome : f.existing content ≠ [] ∨ f.config.choose past.ranked ≠ [] ∨ f.user ≠ none) :
    Header.validate (Source.splitPreamble (f.fix past content).text).2 f.config f.year =
      if Header.word f.config.spdxLicense = f.config.spdxLicense then []
      else [.wrongLicense (some (Header.word f.config.spdxLicense)) f.config.spdxLicense] := by
  have hfits : ∀ p ∈ f.people past content, p.Fits f.config :=
    fits_people (fun h hparse => (hold h hparse).2.2) hchosen huser
  have hcurrent := years_of_current? hyear fun h hparse => ⟨(hold h hparse).1, (hold h hparse).2.1⟩
  obtain ⟨hfirst, hlast⟩ := isYear_years hyear hpast fun h hh => (hcurrent h hh).1
  obtain ⟨hle, hend⟩ := years_le past fun h hh => (hcurrent h hh).2
  have hl : ∀ y ∈ some (f.years past content).2, IsYear y := by simpa using hlast
  obtain ⟨below, hb, hbody⟩ := exists_body_fix hc.toFramed hsign past content
  obtain ⟨h, hparse, hs, he, hpeople, hword⟩ :=
    Header.parse?_generate_license hc hlicense (people_ne_nil hsome) hfits hfirst hl hb
  have hne : h.contributors ≠ [] := by
    rw [hpeople]
    exact Header.take_ne_nil hc (people_ne_nil hsome)
  rw [Header.validate, hbody, header, hparse]
  dsimp only
  rw [Header.issues_of_years (by omega) (he.trans hend) hne]
  by_cases hempty : f.config.spdxLicense = []
  · simp [hempty, Header.word]
  · rw [hword hempty]
    simp [hempty]

theorem current?_eq_none_iff :
    f.current? content = none ↔
      Header.years? f.config.dialect (Source.splitPreamble content).2 = none := by
  rw [Header.years?_eq_none_iff, current?, Option.filter_eq_none_iff]
  simp

/-- A header is written anew exactly if the text has no years to go on from. -/
theorem created_iff :
    (f.fix past content).action = .created ↔
      Header.years? f.config.dialect (Source.splitPreamble content).2 = none := by
  rw [← current?_eq_none_iff, fix]
  cases hc : f.current? content with
  | none => simp
  | some h =>
    dsimp only
    split_ifs <;> simp

/-- A valid header credits somebody. It has years, and a run goes on from it, exactly if one of its
lines says copyright with a year other than zero. -/
theorem valid_goes_on_iff (past : Past)
    (hvalid : Header.validate (Source.splitPreamble content).2 f.config f.year = []) :
    ∃ inner, Header.interior? f.config.dialect (Text.lines (Source.splitPreamble content).2).tail =
    some inner ∧
      inner.flatMap Header.Line.people ≠ [] ∧
      ((Header.years? f.config.dialect (Source.splitPreamble content).2 ≠ none ∧
          (f.fix past content).action ≠ .created) ↔
        ∃ first last who, Header.Line.copyright first last who ∈ inner ∧ first ≠ 0) := by
  rw [Header.validate] at hvalid
  cases hparse : Header.parse? f.config.dialect (Source.splitPreamble content).2 with
  | none =>
    rw [hparse] at hvalid
    cases hvalid
  | some h =>
    rw [hparse] at hvalid
    obtain ⟨-, -, -, -, hpeople⟩ := Header.issues_eq_nil_iff.mp hvalid
    obtain ⟨inner, hinner, hh⟩ := Header.parse?_some hparse
    refine ⟨inner, hinner, ?_, ?_⟩
    · rwa [hh, Header.foldl_absorb_contributors, List.nil_append] at hpeople
    · rw [ne_eq, ne_eq, created_iff, and_self, Header.years?_eq_none_iff, hparse]
      simp only [Option.some.injEq, forall_eq']
      rw [← ne_eq, hh, Header.foldl_absorb_yearStart]
      simp

section Examples

def dual : Fixer :=
  { config := .standard "MIT OR Apache-2.0".toList none, user := some .jane, year := 2025 }

theorem validate_fix_dual :
    Header.validate (Source.splitPreamble (dual.fix {} "x\n".toList).text).2 dual.config dual.year =
      [.wrongLicense (some "MIT".toList) "MIT OR Apache-2.0".toList] := by
  have hreadable : dual.config.Readable := Config.standard_readable (by decide) (by decide)
  have huser : ∀ p ∈ dual.user, p.Fits dual.config := by decide
  have hnone : Header.parse? dual.config.dialect (Source.splitPreamble "x\n".toList).2 = none := by
    decide
  have hvalidate := @validate_fix dual {} "x\n".toList hreadable
    Config.standard_bare (by decide) (by decide) (by simp)
    (fun h hparse => absurd (hnone.symm.trans hparse) (by simp)) (by decide) huser
    (Or.inr (Or.inr (by simp [dual])))
  rw [if_neg (by decide)] at hvalidate
  exact hvalidate

def free : Fixer := { config := Draft.defaults.filled, user := some .jane, year := 2025 }

def dated : Text := "//---\n// Copyright (c) 2020  Jane Doe  jane@example.com\n//---\nx\n".toList

def undated : Text := "//---\n//            Jane Doe  jane@example.com\n//---\nx\n".toList

theorem valid_goes_on_dated :
    Header.years? free.config.dialect (Source.splitPreamble dated).2 ≠ none ∧
      (free.fix {} dated).action ≠ .created := by
  obtain ⟨inner, hinner, -, hiff⟩ := @valid_goes_on_iff free dated {} (by decide)
  have hlines : inner = [.copyright 2020 2020 .jane] :=
    Option.some.inj (hinner.symm.trans (by decide))
  exact hiff.mpr ⟨2020, 2020, .jane, by simp [hlines], by decide⟩

theorem valid_undated :
    Header.validate (Source.splitPreamble undated).2 free.config free.year = [] ∧
      Header.years? free.config.dialect (Source.splitPreamble undated).2 = none ∧
      (free.fix {} undated).action = .created := by
  decide

end Examples

end Fixer
end Masthead
