import Masthead.Proofs.Fix.Step
import Masthead.Proofs.Header.Keeping

/-! Whom an update keeps. Under the default columns, an update of a header for which there is room
keeps the first year and everybody who is credited, exactly if no name on it is longer than 23
characters or hides an address. -/

namespace Masthead
open Text (IsYear Word)

theorem Header.parse?_legible {d : Dialect} {content : Text} {h : Header}
    (hp : parse? d content = some h) (hnames : ∀ p ∈ h.contributors, p.name ≠ []) :
    ∀ p ∈ h.contributors, p.Legible := by
  intro p hmem
  obtain ⟨s, hs⟩ := parse?_person hp p hmem
  exact ⟨person?_trimmed hs (hnames p hmem), person?_email hs⟩

theorem Header.length_withUser_le (people : List Contributor) (user : Option Contributor) :
    (withUser people user).length ≤ people.length + 1 := by
  cases user with
  | none => simp [withUser]
  | some p =>
    rw [withUser]
    split_ifs <;> simp

namespace Fixer

variable {f : Fixer} {content : Text} {old : Header}

theorem parse?_update_iff (hc : f.config.Readable) (hs : f.config.Spaced)
    (hsign : Source.Bare f.config.commentPrefix)
    (hparse : Header.parse? f.config.dialect (Source.splitPreamble content).2 = some old)
    (hstart : IsYear old.yearStart) (hend : IsYear old.yearEnd)
    (hroom : old.contributors.length < f.config.maxContributors)
    (hnames : ∀ p ∈ old.contributors, p.name ≠ []) (huser : ∀ p ∈ f.user, p.Legible)
    (hyear : IsYear f.year) (hcopy : ∀ p ∈ (Header.withUser old.contributors f.user).tail,
      Text.dropIgnoringCase? "Copyright" p.name = none) (past : Past) :
    ∃ new, Header.parse? f.config.dialect (Source.splitPreamble (f.fix past content).text).2 =
      some new ∧
      ((new.yearStart = old.yearStart ∧ new.yearEnd = max old.yearEnd f.year ∧
          new.contributors = Header.withUser old.contributors f.user) ↔
        ∀ p ∈ Header.withUser old.contributors f.user, p.Kept f.config) := by
  have hcurrent : f.current? content = some old := current?_eq_some.mpr ⟨hparse, hstart.ne_zero⟩
  have hne : Header.withUser old.contributors f.user ≠ [] := by
    rw [Header.withUser_eq]
    exact List.append_ne_nil_of_left_ne_nil
      (Header.parse?_contributors_ne_nil hparse hstart.ne_zero) _
  have hlength : (Header.withUser old.contributors f.user).length ≤ f.config.maxContributors := by
    have hle := Header.length_withUser_le old.contributors f.user
    omega
  have hlegible : ∀ p ∈ Header.withUser old.contributors f.user, p.Legible := by
    intro p hp
    rcases Header.mem_of_mem_withUser hp with hp | hp
    · exact Header.parse?_legible hparse hnames p hp
    · exact huser p hp
  have hlast : ∀ y ∈ some (max old.yearEnd f.year), IsYear y := by
    rintro _ ⟨⟩
    exact hend.max hyear
  obtain ⟨below, hb, hbody⟩ := exists_body_fix hc.toFramed hsign past content
  rw [hbody, header_of_current? hcurrent]
  exact Header.parse?_generate_iff hc hs hne hlength hlegible hcopy hstart hlast hb

/-- An update of a header with room for the user keeps the first year and everybody who is credited
exactly if no name is too long for its column. -/
theorem fix_keeps_iff {license : Text} (hlicense : Word license) {limit : Option Int}
    (hconfig : f.config = .standard license limit)
    (hparse : Header.parse? f.config.dialect (Source.splitPreamble content).2 = some old)
    (hstart : IsYear old.yearStart) (hend : IsYear old.yearEnd)
    (hroom : old.contributors.length < f.config.maxContributors)
    (hnames : ∀ p ∈ old.contributors, p.name ≠ []) (huser : ∀ p ∈ f.user, p.Legible)
    (hyear : IsYear f.year) (hcopy : ∀ p ∈ (Header.withUser old.contributors f.user).tail,
      Text.dropIgnoringCase? "Copyright" p.name = none) (past : Past) :
    ∃ new, Header.parse? f.config.dialect (Source.splitPreamble (f.fix past content).text).2 =
      some new ∧
      ((new.yearStart = old.yearStart ∧ new.yearEnd = max old.yearEnd f.year ∧
          new.contributors = Header.withUser old.contributors f.user) ↔
        ∀ p ∈ Header.withUser old.contributors f.user, p.name.length ≤ 23 ∧
          Header.Plain p.name) := by
  have hreadable : f.config.Readable := by
    rw [hconfig] at hroom ⊢
    exact Config.standard_readable hlicense.line (by omega)
  have hspaced : f.config.Spaced := hconfig ▸ Config.standard_spaced
  have hbare : Source.Bare f.config.commentPrefix := hconfig ▸ Config.standard_bare
  have hkept (p : Contributor) : p.Kept f.config ↔ p.name.length ≤ 23 ∧ Header.Plain p.name := by
    have hcolumns : f.config.emailColumn - f.config.nameColumn = 25 := by simp [hconfig]
    constructor
    · intro h
      have hlength := h.room
      exact ⟨by omega, h.plain⟩
    · rintro ⟨hlength, hplain⟩
      exact ⟨by omega, hplain⟩
  simp only [← hkept]
  exact parse?_update_iff hreadable hspaced hbare hparse hstart hend hroom hnames huser
    hyear hcopy past

section Standard

def standard (user : Contributor) : Fixer :=
  { config := .standard "MIT".toList none, user := some user, year := 2025 }

def credited (p : Contributor) : Text :=
  "//---\n// Copyright (c) 2020  ".toList ++ p.name ++ "  ".toList ++ p.email ++
    "\n//---\nx\n".toList

theorem fix_keeps_pair :
    ∃ new, Header.parse? (standard .john).config.dialect
        (Source.splitPreamble ((standard .john).fix {} (credited .jane)).text).2 = some new ∧
      new.yearStart = 2020 ∧ new.yearEnd = 2025 ∧ new.contributors = [.jane, .john] := by
  have hread : (Header.parse? (standard .john).config.dialect
      (Source.splitPreamble (credited .jane)).2).map
      (fun h => (h.yearStart, h.yearEnd, h.contributors)) = some (2020, 2020, [.jane]) := by decide
  obtain ⟨old, hparse, hold⟩ := Option.map_eq_some_iff.mp hread
  simp only [Prod.mk.injEq] at hold
  obtain ⟨hfirst, hlast, hpeople⟩ := hold
  have hjane : Header.Name Contributor.jane.name := by decide
  have hjohn : Header.Name Contributor.john.name := by decide
  have huser : ∀ p ∈ (standard .john).user, p.Legible := by
    rintro _ ⟨⟩
    exact ⟨hjohn.trimmed, by decide⟩
  have hboth : Header.withUser old.contributors (standard .john).user = [.jane, .john] := by
    rw [hpeople]
    decide
  have hkept : ∀ p ∈ [Contributor.jane, .john], p.name.length ≤ 23 ∧ Header.Plain p.name := by
    simp only [List.mem_cons, List.not_mem_nil, or_false, forall_eq_or_imp, forall_eq]
    exact ⟨⟨by decide, hjane.plain⟩, by decide, hjohn.plain⟩
  obtain ⟨new, hnew, hiff⟩ := @fix_keeps_iff (standard .john) (credited .jane) old "MIT".toList
    (by decide) none
    rfl hparse (by rw [hfirst]; decide) (by rw [hlast]; decide) (by rw [hpeople]; decide)
    (by rw [hpeople]; decide) huser (by decide) (by rw [hboth]; decide) {}
  rw [hboth] at hiff
  have hall := hiff.mpr hkept
  rw [hfirst, hlast] at hall
  exact ⟨new, hnew, hall⟩

def authors : Contributor := ⟨"The Example Project Authors".toList, "authors@example.com".toList⟩

theorem fix_loses_authors :
    (Header.parse? (standard authors).config.dialect
      (Source.splitPreamble (credited authors)).2).map
        (fun h => (h.yearStart, h.yearEnd, h.contributors)) = some (2020, 2020, [authors]) ∧
      ∃ new, Header.parse? (standard authors).config.dialect
          (Source.splitPreamble ((standard authors).fix {} (credited authors)).text).2 = some new ∧
        new.yearStart = 0 ∧ new.contributors = [] := by
  have hread : (Header.parse? (standard authors).config.dialect
      (Source.splitPreamble (credited authors)).2).map
      (fun h => (h.yearStart, h.yearEnd, h.contributors)) =
      some (2020, 2020, [authors]) := by decide
  refine ⟨hread, ?_⟩
  have hreadable : (standard authors).config.Readable :=
    Config.standard_readable (by decide) (by decide)
  have hheader : (standard authors).header {} (credited authors) =
      Header.generate (standard authors).config [authors] 2020 (some 2025) := by
    rw [header]
    congr 1
  have hlost : Header.blanksThen Header.person? 1 (Header.creditBehind (standard authors).config
      (Header.yearText 2020 (some 2025)) authors.name authors.email) = none := by decide
  obtain ⟨below, hb, hbody⟩ := exists_body_fix hreadable.toFramed Config.standard_bare {}
    (credited authors)
  have hone : ∀ p ∈ [authors], p.OneLine := by decide
  have htake : [authors].take (standard authors).config.maxContributors = [authors] := rfl
  obtain ⟨new, hnew, hpeople⟩ :=
    Header.parse?_generate_contributors hreadable.toWritable hone 2020 (some 2025) htake hb
  rw [Header.classify_years hreadable Config.standard_spaced (by decide) (by decide) (by decide),
    hlost] at hpeople
  rw [hbody, hheader]
  have hnobody : new.contributors = [] := hpeople
  refine ⟨new, hnew, ?_, hnobody⟩
  by_contra hyear
  exact Header.parse?_contributors_ne_nil hnew hyear hnobody

end Standard

end Fixer
end Masthead
