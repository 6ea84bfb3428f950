import Masthead.Proofs.Header.Recognition
import Masthead.Proofs.Header.Search

/-! What stands in front of the people on a line, and what they are found to be. Everybody who is
found has an address and a trimmed name. The name is missing where nothing but blanks stands between
the opening of the line and the address, so many that some of them are left for a name. -/

namespace Masthead.Header
open Text (Blank Ends isBlank)

/-- What a line that credits somebody begins with, and the least number of blanks behind it. -/
inductive Opens (d : Dialect) : Line → Text → Nat → Prop where
  | copyright {first last : Nat} {who : Contributor} {front : Text}
      (h : Notice d first last front) :
      Opens d (.copyright first last who) front 1
  | continuation {who : Contributor} : Opens d (.continuation who) d.commentPrefix d.indent.toNat

/-- Nothing but blanks stands in front of the address, three more than there have to be, and no
address behind it that could be told from a name. -/
def Nameless (d : Dialect) (line e : Text) : Prop :=
  ∃ front least b t, Opens d (classify d line) front least ∧
    chop line = front ++ (b ++ (e ++ t)) ∧ Blank b ∧
    least + 3 ≤ b.length ∧ Ends t ∧ Plain (e ++ t)

section Openings
variable {d : Dialect} {line front s : Text} {p : Contributor} {least : Nat}

theorem exists_opens (hd : 0 ≤ d.indent) (hp : p ∈ (classify d line).people) :
    ∃ front least s, Opens d (classify d line) front least ∧ chop line = front ++ s ∧
      blanksThen person? least s = some p := by
  rcases reading_of_people hp with ⟨first, last, hkind, hread⟩ | ⟨hkind, hread⟩
  · obtain ⟨_, _, _, front, s, hline, hs, hnotice, hwho⟩ := exists_notice hread
    rw [hkind] at hline
    cases hline
    exact ⟨front, 1, s, hkind ▸ .copyright hnotice, hs, hwho⟩
  · obtain ⟨_, s, hline, hs, hwho⟩ := exists_continuation hd hread
    rw [hkind] at hline
    cases hline
    exact ⟨_, _, s, hkind ▸ .continuation, hs, hwho⟩

theorem Opens.found (hd : 0 ≤ d.indent) (hp : p ∈ (classify d line).people)
    (h : Opens d (classify d line) front least) (hline : chop line = front ++ s) (hs : Ends s) :
    blanksThen person? least s = some p := by
  rcases reading_of_people hp with ⟨first, last, hkind, hread⟩ | ⟨hkind, hread⟩
  · rw [hkind] at h hread
    cases h with
    | copyright hnotice =>
      rw [hline, hnotice.copyright?_append hs] at hread
      obtain ⟨who, hwho, heq⟩ := Option.map_eq_some_iff.mp hread
      cases heq
      exact hwho
  · rw [hkind] at h hread
    cases h with
    | continuation =>
      rw [hline, continuation?_append hd] at hread
      obtain ⟨who, hwho, heq⟩ := Option.map_eq_some_iff.mp hread
      cases heq
      exact hwho

/-- Everybody on a line has an address, and a name without blanks at its ends. The name is missing
exactly where nothing but blanks stands between the opening of the line and the address, three more
than there have to be, and no address farther behind. -/
theorem people_nameless_iff (hd : 0 ≤ d.indent) (hline : '\n' ∉ line)
    (hp : p ∈ (classify d line).people) :
    Address p.email ∧ (∀ c ∈ p.name.head?, isBlank c = false) ∧
    (∀ c ∈ p.name.getLast?, isBlank c = false) ∧
      (p.name = [] ↔ Nameless d line p.email) := by
  obtain ⟨front, least, s, hopens, hs, hfound⟩ := exists_opens hd hp
  obtain ⟨_, r, -, -, -, hperson⟩ := blanksThen_some hfound
  obtain ⟨t, _, _, -, hname, -⟩ := person?_some hperson
  refine ⟨person?_email hperson, hname ▸ Text.head_strip t, hname ▸ Text.last_strip t, ?_⟩
  have hbreak : '\n' ∉ chop line := fun h => hline ((chop_isPrefix line).subset h)
  constructor
  · intro hempty
    have hsbreak : '\n' ∉ s := fun h => hbreak (hs ▸ List.mem_append_right front h)
    have heq : p = ⟨[], p.email⟩ := congrArg (Contributor.mk · p.email) hempty
    rw [heq] at hfound
    obtain ⟨-, b, u, hsplit, hb, hlength, hends, hplain⟩ :=
      (blanksThen_person?_nameless hsbreak).mp hfound
    exact ⟨front, least, b, u, hopens, hsplit ▸ hs, hb, hlength, hends, hplain⟩
  · rintro ⟨front, least, b, u, hopens, hs, hb, hlength, hends, hplain⟩
    have hsbreak : '\n' ∉ b ++ (p.email ++ u) :=
      fun h => hbreak (hs ▸ List.mem_append_right front h)
    have hblank : Ends (b ++ (p.email ++ u)) := by
      obtain ⟨c, b, rfl⟩ := List.exists_cons_of_length_pos (show 0 < b.length by omega)
      rintro _ ⟨⟩
      exact hb c List.mem_cons_self
    have hfound := hopens.found hd hp hs hblank
    have hempty := (blanksThen_person?_nameless hsbreak).mpr
      ⟨person?_email hperson, b, u, rfl, hb, hlength, hends, hplain⟩
    rw [hfound] at hempty
    exact congrArg Contributor.name (Option.some.inj hempty)

end Openings

theorem people_nameless_iff_jane :
    0 ≤ ({} : Dialect).indent ∧
    '\n' ∉ "// Copyright (c) 2020     Jane Doe  jane@example.com".toList ∧
      .jane ∈ (classify {} "// Copyright (c) 2020     Jane Doe  jane@example.com".toList).people ∧
      Address Contributor.jane.email ∧
      ¬ Nameless {} "// Copyright (c) 2020     Jane Doe  jane@example.com".toList
      Contributor.jane.email := by
  have hindent : 0 ≤ ({} : Dialect).indent := by decide
  have hline : '\n' ∉ "// Copyright (c) 2020     Jane Doe  jane@example.com".toList := by decide
  have hjane : .jane ∈
      (classify {} "// Copyright (c) 2020     Jane Doe  jane@example.com".toList).people := by
      decide
  obtain ⟨haddress, -, -, hiff⟩ := people_nameless_iff hindent hline hjane
  exact ⟨hindent, hline, hjane, haddress, fun h => absurd (hiff.mpr h) (by decide)⟩

/-- An address alone is read as that of somebody without a name, where the indentation leaves three
blanks. -/
theorem nameless_found :
    1 ≤ ({} : Dialect).indent ∧ '\n' ∉ "//             jane@example.com".toList ∧
      classify {} "//             jane@example.com".toList =
      .continuation ⟨[], "jane@example.com".toList⟩ := by
  decide

end Masthead.Header
