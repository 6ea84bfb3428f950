import Masthead.Proofs.Fix.Step

/-! What a whole history of runs leaves in a header: the first year stays, the last one is the
latest, and behind the people of the first header stand the users in the order they came, as many as
there is room for. The steps cut the list off each time; the law cuts it off once, at the end. -/

namespace Masthead.Fix
open Source (Bare splitPreamble)
open Text (IsYear)

/-- A run over a file: who works on it, in which year, and what the history of the file tells. -/
structure Visit where
  user : Option Contributor := none
  year : Int
  past : Past := {}

def Visit.fixer (c : Config) (v : Visit) : Fixer := ⟨c, v.user, v.year⟩

def Visit.leave (c : Config) (content : Text) (v : Visit) : Text :=
  ((v.fixer c).fix v.past content).text

def leaveAll (c : Config) (content : Text) (visits : List Visit) : Text :=
  visits.foldl (Visit.leave c) content

def Tells (c : Config) (content : Text) (first last : Int) (people : List Contributor) : Prop :=
  ∃ h, Header.parse? c.dialect (splitPreamble content).2 = some h ∧ h.yearStart = first ∧
    h.yearEnd = last ∧ h.contributors = people

section
variable {c : Config} {content : Text} {first last : Int} {people : List Contributor}

theorem Tells.leave (hc : c.Readable) (hsign : Bare c.commentPrefix)
    (h : Tells c content first last people) (hfirst : IsYear first) (hlast : IsYear last)
    (hpeople : ∀ p ∈ people, p.Fits c) {v : Visit} (hyear : IsYear v.year)
    (huser : ∀ p ∈ v.user, p.Fits c) :
    Tells c (v.leave c content) first (max last v.year)
      ((Header.withUser people v.user).take c.maxContributors) := by
  obtain ⟨old, hparse, rfl, rfl, rfl⟩ := h
  have hcurrent : (v.fixer c).current? content = some old :=
    Fixer.current?_eq_some.mpr ⟨hparse, hfirst.ne_zero⟩
  have hcredited : (v.fixer c).people v.past content = Header.withUser old.contributors v.user := by
    simp only [Fixer.people, hcurrent]
    rfl
  have hyears : (v.fixer c).years v.past content = (old.yearStart, max old.yearEnd v.year) := by
    simp only [Fixer.years, hcurrent]
    rfl
  have hne : (v.fixer c).people v.past content ≠ [] := by
    refine Fixer.people_ne_nil (Or.inl ?_)
    rw [Fixer.existing_eq hparse]
    exact Header.parse?_contributors_ne_nil hparse hfirst.ne_zero
  have hfits : ∀ p ∈ (v.fixer c).people v.past content, p.Fits c := by
    intro p hp
    rw [hcredited] at hp
    rcases Header.mem_of_mem_withUser hp with hp | hp
    · exact hpeople p hp
    · exact huser p hp
  obtain ⟨new, hnew, -, hs, he, hcontributors⟩ :=
      Fixer.parse?_fix (f := v.fixer c) hc hsign hne hfits
    (hyears ▸ hfirst) (hyears ▸ hlast.max hyear)
  rw [hyears] at hs he
  rw [hcredited] at hcontributors
  exact ⟨new, hnew, hs, he, hcontributors⟩

theorem Tells.leaveAll (hc : c.Readable) (hsign : Bare c.commentPrefix)
    (h : Tells c content first last people) (hfirst : IsYear first) (hlast : IsYear last)
    (hpeople : ∀ p ∈ people, p.Fits c) {visits : List Visit} (hne : visits ≠ [])
    (hvisits : ∀ v ∈ visits, IsYear v.year ∧ ∀ p ∈ v.user, p.Fits c) :
    Tells c (leaveAll c content visits) first ((visits.map (·.year)).foldl max last)
      (((visits.map (·.user)).foldl Header.withUser people).take c.maxContributors) := by
  induction visits generalizing content last people with
  | nil => exact absurd rfl hne
  | cons v visits ih =>
    obtain ⟨hyear, huser⟩ := hvisits v List.mem_cons_self
    have hstep := h.leave hc hsign hfirst hlast hpeople hyear huser
    -- Only a visit cuts the list off, so that the last one is a case of its own.
    by_cases hnil : visits = []
    · subst hnil
      exact hstep
    · have hfits : ∀ p ∈ (Header.withUser people v.user).take c.maxContributors, p.Fits c := by
        intro p hp
        rcases Header.mem_of_mem_withUser (List.mem_of_mem_take hp) with hp | hp
        · exact hpeople p hp
        · exact huser p hp
      have hrest := ih hstep (hlast.max hyear) hfits hnil fun w hw =>
        hvisits w (List.mem_cons_of_mem _ hw)
      rwa [Header.take_foldl_withUser] at hrest

end

/-- After any number of visits, the header has the first year it had, the latest of all last years,
and the first of the people it credited and of the users not among them, each address once. -/
theorem leaveAll_tells {c : Config} (hc : c.Readable) (hsign : Bare c.commentPrefix)
    {content : Text} {h : Header}
    (hparse : Header.parse? c.dialect (splitPreamble content).2 = some h)
    (hstart : IsYear h.yearStart) (hend : IsYear h.yearEnd)
    (hpeople : ∀ p ∈ h.contributors, p.Fits c) {visits : List Visit} (hne : visits ≠ [])
    (hvisits : ∀ v ∈ visits, IsYear v.year ∧ ∀ p ∈ v.user, p.Fits c) :
    ∃ h', Header.parse? c.dialect (splitPreamble (leaveAll c content visits)).2 = some h' ∧
      h'.yearStart = h.yearStart ∧ h'.yearEnd = (visits.map (·.year)).foldl max h.yearEnd ∧
      h'.contributors =
        (h.contributors ++ distinctFrom (h.contributors.map Contributor.key)
          (visits.filterMap (·.user))).take
          c.maxContributors := by
  have htells : Tells c content h.yearStart h.yearEnd h.contributors := ⟨h, hparse, rfl, rfl, rfl⟩
  have hall := htells.leaveAll hc hsign hstart hend hpeople hne hvisits
  rw [Header.foldl_withUser, List.filterMap_map] at hall
  exact hall

def shellVisits : List Visit :=
  [{ user := some .jane, year := 2024 }, { year := 2026 },
    { user := some ⟨"J. Doe".toList, "JANE@example.com".toList⟩, year := 2025 }]

theorem leaveAll_tells_script :
    Tells .shell (leaveAll .shell Fixer.script shellVisits) 2019 2026 [.john, .jane] := by
  have hread : (Header.parse? Config.shell.dialect (splitPreamble Fixer.script).2).map
      (fun h => (h.yearStart, h.yearEnd, h.contributors)) = some (2019, 2021, [.john]) := by
    decide
  obtain ⟨h, hparse, hh⟩ := Option.map_eq_some_iff.mp hread
  simp only [Prod.mk.injEq] at hh
  obtain ⟨hfirst, hlast, hpeople⟩ := hh
  have hfits : ∀ p ∈ h.contributors, p.Fits .shell := by
    simp [hpeople, Contributor.john_fits]
  have hvisits : ∀ v ∈ shellVisits, IsYear v.year ∧ ∀ p ∈ v.user, p.Fits .shell := by decide
  obtain ⟨h', hparse', hs, he, hc⟩ := leaveAll_tells Config.shell_readable Fixer.shell_bare hparse
    (by rw [hfirst]; decide) (by rw [hlast]; decide) hfits (List.cons_ne_nil _ _) hvisits
  rw [hfirst] at hs
  rw [hlast] at he
  rw [hpeople] at hc
  exact ⟨h', hparse', hs, he, hc.trans (by decide)⟩

end Masthead.Fix
