import Masthead.Proofs.Header.RoundTrip

/-! Whom a header keeps. Where the years end before the column of names, a header is read back as it
was written exactly if every name leaves two blanks before the column of addresses and hides no
address itself. A longer name is written all the same, and lost when the header is read. -/

namespace Masthead
open Text (IsYear isBlank)

/-- The years end before the column of names, and the column of addresses is so near that no name
between them begins like the line with the license. -/
structure Config.Spaced (c : Config) : Prop where
  years : (c.commentPrefix.length : Int) + 25 ≤ c.nameColumn
  narrow : c.emailColumn ≤ c.nameColumn + 25

theorem Config.standard_spaced {license : Text} {limit : Option Int} :
    (standard license limit).Spaced where
  years := by simp
  narrow := by simp

namespace Contributor

structure Legible (p : Contributor) : Prop where
  name : Header.Trimmed p.name
  email : Header.Address p.email

structure Kept (c : Config) (p : Contributor) : Prop where
  room : (p.name.length : Int) + 2 ≤ c.emailColumn - c.nameColumn
  plain : Header.Plain p.name

end Contributor

section Lists
variable {α : Type} {f : α → List α} {as : List α}

theorem length_flatMap_le (hf : ∀ a, (f a).length ≤ 1) : (as.flatMap f).length ≤ as.length := by
  induction as with
  | nil => simp
  | cons a as ih =>
    have ha := hf a
    simp only [List.flatMap_cons, List.length_append, List.length_cons]
    omega

theorem append_flatMap_eq_cons {a : α} {front : List α} (hfront : front.length ≤ 1)
    (hf : ∀ a, (f a).length ≤ 1) (h : front ++ as.flatMap f = a :: as) :
    front = [a] ∧ ∀ b ∈ as, f b = [b] := by
  induction as generalizing a front with
  | nil =>
    rw [List.flatMap_nil, List.append_nil] at h
    exact ⟨h, by simp⟩
  | cons b as ih =>
    rcases front with _ | ⟨c, _ | ⟨d, front⟩⟩
    · have hlength := congrArg List.length h
      have hle : ((b :: as).flatMap f).length ≤ (b :: as).length := length_flatMap_le hf
      simp only [List.nil_append, List.length_cons] at hlength hle
      omega
    · obtain ⟨rfl, hrest⟩ := List.cons.inj h
      obtain ⟨hb, has⟩ := ih (hf b) hrest
      exact ⟨rfl, List.forall_mem_cons.mpr ⟨hb, has⟩⟩
    · simp at hfront

end Lists

namespace Header

theorem Line.length_people_le (x : Line) : x.people.length ≤ 1 := by
  cases x <;> simp [Line.people]

section Lines
variable {c : Config} {p : Contributor} {first : Int} {last : Option Int}

theorem two_le_emailGap_iff (hc : c.Framed) (hs : c.Spaced) {years : Text} (hy : years.length ≤ 9)
    (name : Text) :
    2 ≤ emailGap c years name ↔ (name.length : Int) + 2 ≤ c.emailColumn - c.nameColumn := by
  have hstart := length_creditStart_le (c := c) hy
  have hyears := hs.years
  have hname := nameGap_eq hc years
  have hemail := emailGap_eq hc years name
  omega

theorem blanksThen_behind_iff (hc : c.Framed) (hs : c.Spaced) (hp : p.Legible) {years : Text}
    (hy : years.length ≤ 9) {least : Nat} (hleast : least ≤ nameGap c years) :
    blanksThen person? least (creditBehind c years p.name p.email) = some p ↔ p.Kept c := by
  rw [creditBehind, blanksThen_person?_iff hp.name hp.email hleast, two_le_emailGap_iff hc hs hy]
  exact ⟨fun h => ⟨h.1, h.2⟩, fun h => ⟨h.room, h.plain⟩⟩

theorem continuation?_years (hs : c.Spaced) (t : Text) :
    continuation? c.dialect (c.dialect.commentPrefix ++ (" Copyright (c) ".toList ++ t)) =
    none := by
  have hyears := hs.years
  have hindent : c.dialect.indent = max 1 (min 10 (c.nameColumn - c.commentPrefix.length)) := rfl
  obtain ⟨n, hn⟩ : ∃ n, c.dialect.indent.toNat = n + 2 := Nat.exists_eq_add_of_le' (by omega)
  rw [continuation?_append (by omega), hn]
  simp [blanksThen, isBlank]

theorem classify_years (hc : c.Readable) (hs : c.Spaced) (he : Address p.email) (hf : IsYear first)
    (hl : ∀ y ∈ last, IsYear y) :
    classify c.dialect (creditLine c (yearText first last) p.name p.email) =
      ((blanksThen person? 1 (creditBehind c (yearText first last) p.name p.email)).map
        (Line.copyright first.toNat (last.getD first).toNat)).getD .other := by
  rw [classify_firstLine_eq hc he hf hl, creditLine_years hc, continuation?_years hs,
    Option.or_none]

theorem people_firstLine_iff (hc : c.Readable) (hs : c.Spaced) (hp : p.Legible) (hf : IsYear first)
    (hl : ∀ y ∈ last, IsYear y) :
    (classify c.dialect (creditLine c (yearText first last) p.name p.email)).people = [p] ↔
    p.Kept c := by
  have hgap := nameGap_pos hc.toFramed (yearText first last)
  rw [classify_years hc hs hp.email hf hl,
    ← blanksThen_behind_iff hc.toFramed hs hp (length_yearText_le hf hl) (show 1 ≤ _ from hgap)]
  cases blanksThen person? 1 (creditBehind c (yearText first last) p.name p.email) with
  | none => simp [Line.people]
  | some who => simp [Line.people]

theorem classify_firstLine_kept (hc : c.Readable) (hs : c.Spaced) (hp : p.Legible)
    (hkept : p.Kept c) (hf : IsYear first) (hl : ∀ y ∈ last, IsYear y) :
    classify c.dialect (creditLine c (yearText first last) p.name p.email) =
      .copyright first.toNat (last.getD first).toNat p := by
  have hgap := nameGap_pos hc.toFramed (yearText first last)
  have hwho := (blanksThen_behind_iff hc.toFramed hs hp (length_yearText_le hf hl)
    (show 1 ≤ _ from hgap)).mpr hkept
  rw [classify_years hc hs hp.email hf hl, hwho]
  rfl

theorem classify_furtherLine_kept (hc : c.Readable) (hs : c.Spaced) (hp : p.Legible)
    (hkept : p.Kept c) (hcopy : Text.dropIgnoringCase? "Copyright" p.name = none) :
    classify c.dialect (creditLine c [] p.name p.email) = .continuation p := by
  have hroom := hkept.room
  have hnarrow := hs.narrow
  have hlicense : Text.dropIgnoringCase? "SPDX-License-Identifier:" p.name = none := by
    refine Option.eq_none_iff_forall_not_mem.mpr fun r hr => ?_
    have hlength := Text.length_of_dropIgnoringCase? hr
    have hword : "SPDX-License-Identifier:".toList.length = 24 := rfl
    omega
  have hindent := indent_le_nameGap hc.toFramed
  have hwho := (blanksThen_behind_iff hc.toFramed hs hp (show ([] : Text).length ≤ 9 by decide)
    (show c.dialect.indent.toNat ≤ nameGap c [] by omega)).mpr hkept
  rw [classify_furtherLine_eq hc hp.name hp.email hcopy hlicense, hwho]
  rfl

theorem kept_of_people_furtherLine (hc : c.Readable) (hs : c.Spaced) (hp : p.Legible)
    (hcopy : Text.dropIgnoringCase? "Copyright" p.name = none)
    (h : (classify c.dialect (creditLine c [] p.name p.email)).people = [p]) : p.Kept c := by
  have hindent := indent_le_nameGap hc.toFramed
  have hpos := c.dialect_indent_pos
  have hgap : 0 < emailGap c [] p.name := by
    have := emailGap_eq hc.toFramed [] p.name
    omega
  have hline : chop (creditLine c [] p.name p.email) =
      c.dialect.commentPrefix ++ creditBehind c [] p.name p.email := by
    rw [creditLine_eq hc, chop_creditBehind c _ _ _ hp.email, creditStart_nil,
      c.dialect_commentPrefix]
  have hcases := classify_cases (d := c.dialect) (creditLine c [] p.name p.email)
  rw [hline, creditBehind, copyright?_furtherLine hp.name hgap hcopy, ← creditBehind,
    continuation?_append (by omega)] at hcases
  rcases hcases with ⟨-, hx⟩ | ⟨-, hx | hx | hx | hx⟩
  · simp [hx, Line.people] at h
  · cases hx
  · obtain ⟨_, _, _, hx⟩ := spdx?_some hx
    simp [hx, Line.people] at h
  · obtain ⟨who, hwho, hx⟩ := Option.map_eq_some_iff.mp hx
    rw [← hx] at h
    obtain rfl : who = p := by simpa [Line.people] using h
    exact (blanksThen_behind_iff hc.toFramed hs hp (show ([] : Text).length ≤ 9 by decide)
      (by omega)).mp hwho
  · simp [hx, Line.people] at h

end Lines

section Block
variable {c : Config} {people : List Contributor} {first : Int} {last : Option Int}

theorem parse?_generate_contributors (hc : c.Writable) (hone : ∀ p ∈ people, p.OneLine)
    (first : Int) (last : Option Int) {p : Contributor} {ps : List Contributor}
    (htake : people.take c.maxContributors = p :: ps) {below : Text} (hb : Text.Follows below) :
    ∃ h, parse? c.dialect (generate c people first last ++ below) = some h ∧
      h.contributors =
        (classify c.dialect (creditLine c (yearText first last) p.name p.email)).people ++
          ps.flatMap fun q => (classify c.dialect (creditLine c [] q.name q.email)).people := by
  have hlicense : (classify c.dialect (licenseLine c)).people = [] := by
    rcases classify_licenseLine hc with hx | ⟨_, _, _, hx⟩ <;> rw [hx] <;> rfl
  refine ⟨_, parse?_generate_foldl hc hone rfl hb, ?_⟩
  rw [map_classify_between c.dialect first last htake, foldl_absorb_contributors]
  simp [List.flatMap_append, List.flatMap_map, hlicense]

/-- A header is read back as it was written exactly if everybody on it is kept. -/
theorem parse?_generate_iff (hc : c.Readable) (hs : c.Spaced) (hne : people ≠ [])
    (hlength : people.length ≤ c.maxContributors) (hp : ∀ p ∈ people, p.Legible)
    (hcopy : ∀ p ∈ people.tail, Text.dropIgnoringCase? "Copyright" p.name = none)
    (hf : IsYear first) (hl : ∀ y ∈ last, IsYear y) {below : Text} (hb : Text.Follows below) :
    ∃ h, parse? c.dialect (generate c people first last ++ below) = some h ∧
      ((h.yearStart = first ∧ h.yearEnd = last.getD first ∧ h.contributors = people) ↔
        ∀ p ∈ people, p.Kept c) := by
  have htake : people.take c.maxContributors = people := List.take_of_length_le hlength
  have hone : ∀ p ∈ people, p.OneLine :=
    fun p hmem => ⟨(hp p hmem).name.line, (hp p hmem).email.word.line⟩
  obtain ⟨p, ps, rfl⟩ := List.exists_cons_of_ne_nil hne
  obtain ⟨hhead, hrest⟩ := List.forall_mem_cons.mp hp
  obtain ⟨h, hparse, hcontributors⟩ :=
    parse?_generate_contributors hc.toWritable hone first last htake hb
  refine ⟨h, hparse, ?_, ?_⟩
  · rintro ⟨-, -, hall⟩
    rw [hcontributors] at hall
    obtain ⟨hfirst, hfurther⟩ := append_flatMap_eq_cons (Line.length_people_le _)
      (fun q => Line.length_people_le _) hall
    refine List.forall_mem_cons.mpr ⟨(people_firstLine_iff hc hs hhead hf hl).mp hfirst,
      fun q hq => ?_⟩
    exact kept_of_people_furtherLine hc hs (hrest q hq) (hcopy q hq) (hfurther q hq)
  · intro hkept
    obtain ⟨hkeptFirst, hkeptRest⟩ := List.forall_mem_cons.mp hkept
    have hread : ReadBack c first last ((p :: ps).take c.maxContributors) := by
      rw [htake]
      refine ⟨classify_firstLine_kept hc hs hhead hkeptFirst hf hl, fun q hq => ?_⟩
      exact classify_furtherLine_kept hc hs (hrest q hq) (hkeptRest q hq) (hcopy q hq)
    obtain ⟨h', hparse', -, hyears⟩ := parse?_generate hc hne hone hread hf hl hb
    rw [htake] at hyears
    obtain rfl : h' = h := Option.some.inj (hparse'.symm.trans hparse)
    exact hyears

end Block
end Header
end Masthead
