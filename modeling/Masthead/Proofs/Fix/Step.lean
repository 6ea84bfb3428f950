import Masthead.Fix
import Masthead.Proofs.Contributor.Crediting
import Masthead.Proofs.Header.Replacement
import Masthead.Proofs.Header.RoundTrip
import Masthead.Proofs.Source.Preamble

/-! What one run does. Every run generates a header, for people and years that depend on the header
found. A text that has this very header is left alone, in any other the header is put in; either way
the people and years are read back afterwards. -/

namespace Masthead

theorem Header.exists_generate_eq {c : Config} (hc : c.Ruled) (people : List Contributor)
    (first : Int) (last : Option Int) :
    ∃ x rest, x ∈ Config.separatorChars ∧ Header.generate c people first last = c.commentPrefix ++
    x :: rest := by
  obtain ⟨fill, hne, hfill, hsep⟩ := Header.separatorLine_eq hc
  obtain ⟨x, fill, rfl⟩ := List.exists_cons_of_ne_nil hne
  have hgenerate := Header.generate_eq c people first last
  rw [Text.unlines_cons (by simp), hsep, List.append_assoc, List.cons_append] at hgenerate
  exact ⟨x, _, hfill x List.mem_cons_self, hgenerate⟩

theorem Header.bare_generate {c : Config} (hc : c.Framed) (hsign : Source.Bare c.commentPrefix)
    {people : List Contributor} {first : Int} {last : Option Int} (below : Text) :
    Source.Bare (Header.generate c people first last ++ below) := by
  obtain ⟨x, rest, hx, hgenerate⟩ := exists_generate_eq hc.ruled people first last
  have hplain : x ≠ '!' := fun h => absurd (h ▸ hx) (by decide)
  rw [hgenerate, List.append_assoc, List.cons_append]
  exact hsign.append hc.sign_ne hplain _

theorem Config.standard_bare {license : Text} {limit : Option Int} :
    Source.Bare (standard license limit).commentPrefix where
  mark := by simp [Source.byteOrderMark]
  directive := by simp [Text.startsWith, Text.drop?]

theorem exists_put (d : Dialect) (content new : Text) :
    ∃ pre tail, Source.Closed pre ∧ Header.Apart tail ∧
      Source.joinPreamble (Source.splitPreamble content).1
        (Header.replace (Source.splitPreamble content).2 new
          (Header.parse? d (Source.splitPreamble content).2)) = pre ++ (new ++ tail) := by
  obtain ⟨tail, ht, hbody⟩ := Header.exists_replace d (Source.splitPreamble content).2 new
  exact ⟨_, tail, Source.closed_closePreamble content, ht, by rw [hbody, Source.joinPreamble]⟩

namespace Fixer

def people (f : Fixer) (past : Past) (content : Text) : List Contributor :=
  match f.current? content with
  | none => f.newPeople past (f.existing content)
  | some h => Header.withUser h.contributors f.user

def years (f : Fixer) (past : Past) (content : Text) : Int × Int :=
  match f.current? content with
  | none => f.newYears past
  | some h => (h.yearStart, h.lastYear (some f.year))

def header (f : Fixer) (past : Past) (content : Text) : Text :=
  Header.generate f.config (f.people past content) (f.years past content).1
    (some (f.years past content).2)

variable {f : Fixer} {past : Past} {content : Text}

theorem current?_eq_some {h : Header} :
    f.current? content = some h ↔
      Header.parse? f.config.dialect (Source.splitPreamble content).2 = some h ∧
      h.yearStart ≠ 0 := by
  simp [current?, Option.filter_eq_some_iff]

theorem existing_eq {h : Header}
    (hp : Header.parse? f.config.dialect (Source.splitPreamble content).2 = some h) :
    f.existing content = h.contributors := by
  rw [existing, hp]
  rfl

theorem header_of_current? {h : Header} (hc : f.current? content = some h) :
    f.header past content = h.update f.config f.user (some f.year) := by
  simp only [header, people, years, hc]
  rfl

theorem fix_of_raw_eq {h : Header} (hc : f.current? content = some h)
    (hraw : h.raw = f.header past content) : f.fix past content = ⟨content, .unchanged, []⟩ := by
  rw [header_of_current? hc] at hraw
  simp only [fix, hc]
  rw [if_pos hraw.symm]

theorem mem_existing {p : Contributor} (h : p ∈ f.existing content) :
    ∃ old, Header.parse? f.config.dialect (Source.splitPreamble content).2 = some old ∧
      p ∈ old.contributors := by
  cases hp : Header.parse? f.config.dialect (Source.splitPreamble content).2 with
  | none => simp [existing, hp] at h
  | some old =>
    rw [existing_eq hp] at h
    exact ⟨old, rfl, h⟩

/-- A run leaves a text with the generated header as it is, and puts the header into any other. -/
theorem fix_cases (f : Fixer) (past : Past) (content : Text) :
    ((f.fix past content).action.modifies = false ∧ (f.fix past content).text = content ∧
      ∃ h, Header.parse? f.config.dialect (Source.splitPreamble content).2 = some h ∧
        h.raw = f.header past content) ∨
    ((f.fix past content).action.modifies = true ∧
      (f.fix past content).text = Source.joinPreamble (Source.splitPreamble content).1
        (Header.replace (Source.splitPreamble content).2 (f.header past content)
          (Header.parse? f.config.dialect (Source.splitPreamble content).2))) := by
  cases hc : f.current? content with
  | none =>
    right
    simp only [fix, header, people, years, hc]
    exact ⟨rfl, rfl⟩
  | some h =>
    have hp := (current?_eq_some.mp hc).1
    by_cases hraw : h.raw = f.header past content
    · left
      rw [fix_of_raw_eq hc hraw]
      exact ⟨rfl, rfl, h, hp, hraw⟩
    · right
      rw [header_of_current? hc] at hraw ⊢
      simp only [fix, hc, hp, if_neg (Ne.symm hraw)]
      exact ⟨rfl, trivial⟩

theorem mem_newPeople {old : List Contributor} {p : Contributor} (h : p ∈ f.newPeople past old) :
    p ∈ old ∨ p ∈ f.config.choose past.ranked ∨ p ∈ f.user := by
  rw [newPeople] at h
  rcases mem_of_mem_merge h with h | h
  · exact Or.inl h
  · rcases List.mem_append.mp h with h | h
    · exact Or.inr (Or.inl h)
    · exact Or.inr (Or.inr (Option.mem_toList.mp h))

theorem mem_people {p : Contributor} (h : p ∈ f.people past content) :
    p ∈ f.existing content ∨ p ∈ f.config.choose past.ranked ∨ p ∈ f.user := by
  rw [people] at h
  cases hc : f.current? content with
  | none =>
    rw [hc] at h
    exact mem_newPeople h
  | some old =>
    rw [hc] at h
    rw [existing_eq (current?_eq_some.mp hc).1]
    exact (Header.mem_of_mem_withUser h).imp_right Or.inr

theorem fits_people
    (hold : ∀ h, Header.parse? f.config.dialect (Source.splitPreamble content).2 = some h →
      ∀ p ∈ h.contributors, p.Fits f.config)
    (hchosen : ∀ p ∈ f.config.choose past.ranked, p.Fits f.config)
      (huser : ∀ p ∈ f.user, p.Fits f.config) :
    ∀ p ∈ f.people past content, p.Fits f.config := by
  intro p hp
  rcases mem_people hp with hp | hp | hp
  · obtain ⟨h, hparse, hp⟩ := mem_existing hp
    exact hold h hparse p hp
  · exact hchosen p hp
  · exact huser p hp

theorem credits_people {p : Contributor} (hp : p ∈ f.user) :
    credits (f.people past content) p.email = true := by
  rw [people]
  cases f.current? content with
  | none =>
    refine credits_merge (List.mem_append_right _ (List.mem_append_right _ ?_))
    exact Option.mem_toList.mpr hp
  | some old => exact Header.credits_withUser hp

theorem people_ne_nil
    (h : f.existing content ≠ [] ∨ f.config.choose past.ranked ≠ [] ∨ f.user ≠ none) :
    f.people past content ≠ [] := by
  rw [people]
  cases hc : f.current? content with
  | none =>
    refine merge_ne_nil ?_
    simpa [imp_iff_not_or, or_assoc, Option.eq_none_iff_forall_ne_some] using h
  | some old =>
    obtain ⟨hp, hy⟩ := current?_eq_some.mp hc
    dsimp only
    rw [Header.withUser_eq]
    exact List.append_ne_nil_of_left_ne_nil (Header.parse?_contributors_ne_nil hp hy) _

/-- Whatever a run did, the generated header stands at the top of the text it leaves. -/
theorem exists_body_fix (hc : f.config.Framed) (hsign : Source.Bare f.config.commentPrefix)
    (past : Past) (content : Text) :
    ∃ below, Text.Follows below ∧
      (Source.splitPreamble (f.fix past content).text).2 = f.header past content ++ below := by
  rcases fix_cases f past content with ⟨-, htext, h, hparse, hraw⟩ | ⟨-, htext⟩
  · obtain ⟨below, hb, hbody, -⟩ := Header.parse?_split hparse
    exact ⟨below, hb, by rw [htext, hbody, hraw]⟩
  · obtain ⟨pre, tail, hpre, ht, hput⟩ :=
      exists_put f.config.dialect content (f.header past content)
    have hbare : Source.Bare (f.header past content ++ tail) := Header.bare_generate hc hsign tail
    exact ⟨tail, ht.follows, by rw [htext, hput, hpre.splitPreamble_append hbare]⟩

theorem parse?_fix (hc : f.config.Readable) (hsign : Source.Bare f.config.commentPrefix)
    (hne : f.people past content ≠ []) (hp : ∀ p ∈ f.people past content, p.Fits f.config)
    (hf : Text.IsYear (f.years past content).1) (hl : Text.IsYear (f.years past content).2) :
    ∃ h, Header.parse? f.config.dialect (Source.splitPreamble (f.fix past content).text).2 =
    some h ∧
      h.raw = f.header past content ∧ h.yearStart = (f.years past content).1 ∧
      h.yearEnd = (f.years past content).2 ∧
      h.contributors = (f.people past content).take f.config.maxContributors := by
  have hl' : ∀ y ∈ some (f.years past content).2, Text.IsYear y := by simpa using hl
  obtain ⟨below, hb, hbody⟩ := exists_body_fix hc.toFramed hsign past content
  rw [hbody]
  refine Header.parse?_generate hc hne (fun p hmem => (hp p hmem).oneLine) ?_ hf hl' hb
  exact Header.readBack_of_fits hc (fun p hmem => hp p (List.mem_of_mem_take hmem)) hf hl'

section Shell

def shell : Fixer := { config := .shell, user := some .jane, year := 2024 }

theorem shell_bare : Source.Bare shell.config.commentPrefix := ⟨by decide, by decide +kernel⟩

def script : Text :=
  "#!/bin/sh\n#---\n# Copyright (c) 2019-2021  John Roe  john@example.com\n#---\nexit 0\n".toList

end Shell

end Fixer
end Masthead
