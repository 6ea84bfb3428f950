import Masthead.Proofs.Fix.Step

/-! A second run changes nothing. What the first run left is read back as it was written, and the
header for it is the same again: the user is credited or was cut off, and the last year is not
before this one. -/

namespace Masthead

theorem Header.generate_congr {c : Config} {people people' : List Contributor}
    (h : people.take c.maxContributors = people'.take c.maxContributors) (first : Int)
    (last : Option Int) :
    Header.generate c people first last = Header.generate c people' first last := by
  simp only [Header.generate, Header.render, Header.columns, h]

namespace Fixer
open Text (IsYear)

variable {f : Fixer} {past : Past} {content : Text}

theorem year_le_years : f.year ≤ (f.years past content).2 := by
  rw [years]
  cases f.current? content with
  | none => exact Int.le_refl _
  | some old => exact Int.le_max_right _ _

theorem isYear_years (hyear : IsYear f.year) (hpast : ∀ y ∈ past.years, IsYear y.1)
    (hold : ∀ h ∈ f.current? content, IsYear h.yearStart ∧ (h.yearEnd ≠ 0 → IsYear h.yearEnd)) :
    IsYear (f.years past content).1 ∧ IsYear (f.years past content).2 := by
  rw [years]
  cases hc : f.current? content with
  | none =>
    refine ⟨IsYear.min ?_ hyear, hyear⟩
    cases hy : past.years with
    | none => exact hyear
    | some y => exact hpast y hy
  | some old =>
    obtain ⟨hstart, hend⟩ := hold old hc
    refine ⟨hstart, ?_⟩
    change IsYear (max old.yearEnd f.year)
    by_cases h0 : old.yearEnd = 0
    · rw [h0, Int.max_eq_right (Int.le_trans (by decide) hyear.1)]
      exact hyear
    · exact (hend h0).max hyear

theorem header_of_read {text : Text} {h : Header} (past' : Past) (hc : f.current? text = some h)
    (hstart : h.yearStart = (f.years past content).1) (hend : h.yearEnd = (f.years past content).2)
    (hpeople : h.contributors = (f.people past content).take f.config.maxContributors) :
    f.header past' text = f.header past content := by
  have hyears : h.lastYear (some f.year) = (f.years past content).2 := by
    rw [Header.lastYear, hend]
    exact Int.max_eq_left year_le_years
  rw [header_of_current? hc, Header.update, hstart, hyears, hpeople]
  refine Header.generate_congr ?_ _ _
  rw [Header.take_withUser, Header.withUser_eq_self fun p hp => credits_people hp]

/-- Fixing what was fixed changes nothing, whatever the history of the file tells by then. -/
theorem fix_fix (hc : f.config.Readable) (hsign : Source.Bare f.config.commentPrefix)
    (hyear : IsYear f.year) (hpast : ∀ y ∈ past.years, IsYear y.1)
    (hold : ∀ h, Header.parse? f.config.dialect (Source.splitPreamble content).2 = some h →
      (h.yearStart ≠ 0 → IsYear h.yearStart) ∧ (h.yearEnd ≠ 0 → IsYear h.yearEnd) ∧
        ∀ p ∈ h.contributors, p.Fits f.config)
    (hchosen : ∀ p ∈ f.config.choose past.ranked, p.Fits f.config)
    (huser : ∀ p ∈ f.user, p.Fits f.config)
    (hsome : f.existing content ≠ [] ∨ f.config.choose past.ranked ≠ [] ∨ f.user ≠ none)
    (past' : Past) :
    f.fix past' (f.fix past content).text = ⟨(f.fix past content).text, .unchanged, []⟩ := by
  have hfits : ∀ p ∈ f.people past content, p.Fits f.config := by
    intro p hp
    rcases mem_people hp with hp | hp | hp
    · obtain ⟨h, hparse, hp⟩ := mem_existing hp
      exact (hold h hparse).2.2 p hp
    · exact hchosen p hp
    · exact huser p hp
  have hcur : ∀ h ∈ f.current? content, IsYear h.yearStart ∧
      (h.yearEnd ≠ 0 → IsYear h.yearEnd) := by
    intro h hh
    obtain ⟨hparse, hy⟩ := current?_eq_some.mp hh
    exact ⟨(hold h hparse).1 hy, (hold h hparse).2.1⟩
  obtain ⟨hfirst, hlast⟩ := isYear_years hyear hpast hcur
  obtain ⟨h, hparse, hraw, hstart, hend, hpeople⟩ :=
    parse?_fix hc hsign (people_ne_nil hsome) hfits hfirst hlast
  have hcurrent : f.current? (f.fix past content).text = some h :=
    current?_eq_some.mpr ⟨hparse, hstart ▸ hfirst.ne_zero⟩
  refine fix_of_raw_eq hcurrent ?_
  rw [hraw, header_of_read past' hcurrent hstart hend hpeople]

theorem fix_fix_script :
    (shell.fix {} script).action = .updated ∧
      shell.fix {} (shell.fix {} script).text = ⟨(shell.fix {} script).text, .unchanged, []⟩ := by
  have hold : ∀ h ∈ Header.parse? shell.config.dialect (Source.splitPreamble script).2,
      (h.yearStart ≠ 0 → IsYear h.yearStart) ∧ (h.yearEnd ≠ 0 → IsYear h.yearEnd) ∧
        ∀ p ∈ h.contributors, p.Fits shell.config := by decide
  have huser : ∀ p ∈ shell.user, p.Fits shell.config := by decide
  exact ⟨by decide, fix_fix Config.shell_readable shell_bare (by decide) (by simp) hold
    (by decide) huser (by simp [shell]) {}⟩

end Fixer
end Masthead
