import Masthead.Proofs.Header.Block

/-! How far a header reaches. Its own text holds all that was read: from the separator it opens with
to the next one, whatever stands on the lines below. -/

namespace Masthead.Header
open Text (Follows)

/-- The text of a header is a block of its own. -/
structure Encloses (d : Dialect) (h : Header) : Prop where
  lines : ∃ opening inner closing, Text.lines h.raw = opening :: (inner ++ [closing]) ∧
    classify d opening = .separator ∧ classify d closing = .separator ∧
    ∀ l ∈ inner, classify d l ≠ .separator
  count : (Text.lines h.raw).length = h.endLine
  reread : parse? d h.raw = some h

section
variable {d : Dialect} {content : Text} {h : Header}

theorem parse?_isSome_iff_exists (d : Dialect) (content : Text) :
    (parse? d content).isSome = true ↔
      ∃ first rest, Text.lines content = first :: rest ∧ classify d first = .separator ∧
        ∃ l ∈ rest, classify d l = .separator := by
  constructor
  · intro hsome
    have hlines := Text.lines_eq_cons content
    obtain ⟨hfirst, hlater⟩ := (parse?_isSome_iff hlines).mp hsome
    exact ⟨_, _, hlines, hfirst, hlater⟩
  · rintro ⟨first, rest, hlines, hfirst, hlater⟩
    exact (parse?_isSome_iff hlines).mpr ⟨hfirst, hlater⟩

theorem parse?_encloses (hp : parse? d content = some h) : h.Encloses d := by
  obtain ⟨opening, inner, closing, below, hlines, ho, hc, hi, rfl⟩ := parse?_eq_some hp
  have hraw := Text.lines_unlines (by simp) (notMem_of_lines hlines)
  constructor
  · rw [foldl_absorb_raw]
    exact ⟨opening, inner, closing, hraw, ho, hc, hi⟩
  · rw [foldl_absorb_raw, foldl_absorb_endLine, hraw]
    simp
  · rw [foldl_absorb_raw]
    exact parse?_of_lines hraw ho hc hi

theorem Encloses.two_le_endLine (he : h.Encloses d) : 2 ≤ h.endLine := by
  obtain ⟨opening, inner, closing, hlines, -⟩ := he.lines
  have hcount := he.count
  rw [hlines] at hcount
  simp only [List.length_cons, List.length_append, List.length_nil] at hcount
  omega

theorem parse?_content (hp : parse? d content = some h) :
    content = h.raw ∨ ∃ below, content = h.raw ++ '\n' :: below := by
  obtain ⟨below, hbelow, hcontent, -⟩ := parse?_split hp
  cases below with
  | nil => exact Or.inl (by rw [hcontent, List.append_nil])
  | cons c below =>
    obtain rfl : c = '\n' := hbelow c rfl
    exact Or.inr ⟨below, hcontent⟩

end

/-- Reading takes a header off the top of a text. There is one if the first line is a separator and
a later line is; the text is the header, or the header and further lines, and with any other lines
below it the header is the same. -/
theorem parse?_stands_alone (d : Dialect) (content : Text) :
    ((parse? d content).isSome = true ↔
      ∃ first rest, Text.lines content = first :: rest ∧ classify d first = .separator ∧
        ∃ l ∈ rest, classify d l = .separator) ∧
    ∀ h, parse? d content = some h →
      (content = h.raw ∨ ∃ below, content = h.raw ++ '\n' :: below) ∧
      h.Encloses d ∧ 2 ≤ h.endLine ∧ h.startLine = 1 ∧
      ∀ below, parse? d (h.raw ++ '\n' :: below) = some h := by
  refine ⟨parse?_isSome_iff_exists d content, fun h hp => ?_⟩
  have he := parse?_encloses hp
  exact ⟨parse?_content hp, he, he.two_le_endLine, rfl,
    fun below => parse?_append he.reread (Text.follows_cons below)⟩

def carriageReturns : Text :=
  "//--\r\n// Copyright (c) 2020-2024  Jane  jane@example.org\r\n".toList ++
    "//          John  john@example.org\r\n//==\r\nx".toList

theorem carriageReturns_stand_alone :
    ∃ h, parse? {} carriageReturns = some h ∧ h.endLine = 4 ∧ h.raw.getLast? = some '\r' ∧
      h.contributors = [⟨"Jane", "jane@example.org"⟩, ⟨"John", "john@example.org"⟩] ∧
      parse? {} (h.raw ++ '\n' :: "//--\n//--") = some h := by
  have hread : (parse? {} carriageReturns).map
      (fun h => (h.endLine, h.raw.getLast?, h.contributors)) =
      some (4, some '\r', [⟨"Jane", "jane@example.org"⟩, ⟨"John", "john@example.org"⟩]) := by
    decide +kernel
  obtain ⟨h, hp, hfacts⟩ := Option.map_eq_some_iff.mp hread
  obtain ⟨hlines, hlast, hpeople⟩ : _ ∧ _ ∧ _ := by simpa only [Prod.mk.injEq] using hfacts
  obtain ⟨-, -, -, -, hbelow⟩ := (parse?_stands_alone {} carriageReturns).2 h hp
  exact ⟨h, hp, hlines, hlast, hpeople, hbelow _⟩

end Masthead.Header
