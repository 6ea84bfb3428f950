import Masthead.Proofs.Header.Recognition

/-! The lines that credit contributors. Whoever fits the columns is read back from the line that
credits them, on the first line together with the years. -/

namespace Masthead.Header
open Text (Blank Ends Word IsYear isBlank spaces)

def creditStart (c : Config) (years : Text) : Text :=
  if years.isEmpty then c.commentPrefix else c.commentPrefix ++ " Copyright (c) " ++ years

theorem creditColumns_eq (c : Config) (years name email : Text) :
    creditColumns c years name email =
      [⟨creditStart c years, 0⟩, ⟨name, c.nameColumn⟩, ⟨email, c.emailColumn⟩] := rfl

section Shape
variable {c : Config} {p : Contributor} {years : Text}

theorem creditStart_nil : creditStart c [] = c.commentPrefix := rfl

theorem creditStart_years (hy : years ≠ []) :
    creditStart c years = c.commentPrefix ++ " Copyright (c) ".toList ++ years := by
  rw [creditStart, if_neg (by simpa using hy)]

theorem length_creditStart_pos (hc : c.Framed) : 0 < (creditStart c years).length := by
  have hsign := List.length_pos_iff.mpr hc.sign_ne
  unfold creditStart
  split_ifs
  · exact hsign
  · simp only [List.length_append]
    omega

theorem length_creditStart_le (hy : years.length ≤ 9) :
    (creditStart c years).length ≤ c.commentPrefix.length + 24 := by
  unfold creditStart
  split_ifs
  · omega
  · have hlen : (" Copyright (c) ".toList).length = 15 := rfl
    simp only [List.length_append, hlen]
    omega

theorem exists_creditLine_eq (hc : c.Writable) (name email : Text) :
    ∃ r, creditLine c years name email = c.commentPrefix ++ ' ' :: r := by
  have hpos := @length_creditStart_pos c years hc.toFramed
  have hline : creditLine c years name email = creditStart c years ++
      Layout.place (creditStart c years).length
        (Layout.sorted [⟨name, c.nameColumn⟩, ⟨email, c.emailColumn⟩]) := by
    rw [creditLine, creditColumns_eq, Layout.line_start]
    simp [hc.name_nonneg, hc.email_nonneg]
  by_cases hy : years = []
  · subst hy
    rw [creditStart_nil] at hline hpos
    obtain ⟨r, hr⟩ := Layout.place_eq_space hpos
      (show Layout.sorted [⟨name, c.nameColumn⟩, ⟨email, c.emailColumn⟩] ≠ [] by
        simp [Layout.sorted, ← List.length_eq_zero_iff])
    exact ⟨r, by rw [hline, hr]⟩
  · rw [hline, creditStart_years hy]
    exact ⟨_, by simp only [List.append_assoc]; rfl⟩

def nameGap (c : Config) (years : Text) : Nat :=
  Layout.gap (creditStart c years).length c.nameColumn

def emailGap (c : Config) (years name : Text) : Nat :=
  Layout.gap ((creditStart c years).length + nameGap c years + name.length) c.emailColumn

def creditBehind (c : Config) (years name email : Text) : Text :=
  spaces (nameGap c years) ++ (name ++ (spaces (emailGap c years name) ++ email))

theorem creditLine_eq (hc : c.Readable) (years name email : Text) :
    creditLine c years name email = creditStart c years ++ creditBehind c years name email := by
  rw [creditLine, creditColumns_eq, Layout.line_triple _ hc.name_nonneg hc.name_le_email]
  rfl

theorem nameGap_eq (hc : c.Framed) (years : Text) :
    (nameGap c years : Int) = max (c.nameColumn - (creditStart c years).length) 1 :=
  Layout.gap_eq (length_creditStart_pos hc) _

theorem nameGap_pos (hc : c.Framed) (years : Text) : 0 < nameGap c years :=
  Layout.gap_pos (length_creditStart_pos hc) _

theorem emailGap_eq (hc : c.Framed) (years name : Text) :
    (emailGap c years name : Int) =
      max (c.emailColumn - ((creditStart c years).length + nameGap c years + name.length : Nat))
      1 := by
  have hpos := @length_creditStart_pos c years hc
  exact Layout.gap_eq (by omega) _

theorem two_le_emailGap (hc : c.Framed) (hp : p.Fits c) (hy : years.length ≤ 9) :
    2 ≤ emailGap c years p.name := by
  have hlen := length_creditStart_le (c := c) hy
  have hroom := hp.room
  have hname := nameGap_eq hc years
  have hemail := emailGap_eq hc years p.name
  omega

theorem ends_creditBehind (hc : c.Framed) (years name email : Text) :
    Ends (creditBehind c years name email) :=
  Text.ends_spaces (nameGap_pos hc years) _

end Shape

theorem chop_creditBehind (c : Config) (s years name : Text) {email : Text} (he : Address email) :
    chop (s ++ creditBehind c years name email) = s ++ creditBehind c years name email := by
  have hchop := chop_append_word
    (s ++ spaces (nameGap c years) ++ name ++ spaces (emailGap c years name)) he.word
  simpa only [creditBehind, List.append_assoc] using hchop

section Reading
variable {c : Config} {d : Dialect} {p : Contributor}

theorem copyright?_years {first : Int} {last : Option Int} (hf : IsYear first)
    (hl : ∀ y ∈ last, IsYear y) {t : Text} (ht : Ends t) :
    copyright? d (d.commentPrefix ++ (" Copyright (c) ".toList ++ (yearText first last ++ t))) =
      (blanksThen person? 1 t).map (Line.copyright first.toNat (last.getD first).toNat) := by
  have hnotice : Notice d first.toNat (last.getD first).toNat (d.commentPrefix ++
      (spaces 1 ++ ("Copyright".toList ++
      (spaces 1 ++ ("(c)".toList ++ (spaces 1 ++ yearText first last)))))) :=
    .intro (Text.alike_self _) (Text.blank_spaces 1) (Text.alike_self _) (Text.blank_spaces 1)
      (Text.alike_self _)
      (Text.blank_spaces 1) (years_yearText hf hl)
  rw [← hnotice.copyright?_append ht]
  simp only [List.append_assoc]
  rfl

/-- The word `Copyright` keeps the line with the years from being read as one about the license. -/
theorem spdx?_years (t : Text) :
    spdx? d (d.commentPrefix ++ (" Copyright (c) ".toList ++ t)) = none := by
  have hletter : Text.sameLetter 'S' 'C' = false := by decide
  have hcopy : Word "Copyright".toList := by decide
  have hwords : " Copyright (c) ".toList ++ t = spaces 1 ++
      ("Copyright".toList ++ (" (c) ".toList ++ t)) :=
    rfl
  have hnone : Text.dropIgnoringCase? "SPDX-License-Identifier:"
      ("Copyright".toList ++ (" (c) ".toList ++ t)) = none :=
    Text.dropIgnoringCase?_cons_ne hletter "PDX-License-Identifier:" ("opyright".toList ++
      (" (c) ".toList ++ t))
  simp only [spdx?, body?_append, hwords, Text.stripLeft_spaces_append 1 (hcopy.head _), hnone,
    Option.bind_eq_bind, Option.bind_some, Option.bind_none]

theorem creditLine_years (hc : c.Readable) (first : Int) (last : Option Int) (name email : Text) :
    creditLine c (yearText first last) name email =
      c.dialect.commentPrefix ++ (" Copyright (c) ".toList ++ (yearText first last ++
        creditBehind c (yearText first last) name email)) := by
  rw [creditLine_eq hc, creditStart_years (word_yearText first last).ne_nil]
  simp only [List.append_assoc]
  rfl

theorem classify_firstLine_eq (hc : c.Readable) (he : Address p.email) {first : Int}
    {last : Option Int} (hf : IsYear first) (hl : ∀ y ∈ last, IsYear y) :
    classify c.dialect (creditLine c (yearText first last) p.name p.email) =
      (((blanksThen person? 1 (creditBehind c (yearText first last) p.name p.email)).map
          (Line.copyright first.toNat (last.getD first).toNat)).or
        (continuation? c.dialect (creditLine c (yearText first last) p.name p.email))).getD
          .other := by
  have hends := ends_creditBehind hc.toFramed (yearText first last) p.name p.email
  have hsep : isSeparator c.dialect (c.dialect.commentPrefix ++ (" Copyright (c) ".toList ++
      (yearText first last ++ creditBehind c (yearText first last) p.name p.email))) = false :=
    isSeparator_space _
  rw [classify, creditLine_eq hc, chop_creditBehind c _ _ _ he, ← creditLine_eq hc,
    creditLine_years hc, hsep, copyright?_years hf hl hends, spdx?_years, Option.or_none]
  rfl

theorem classify_firstLine (hc : c.Readable) (hp : p.Fits c) {first : Int} {last : Option Int}
    (hf : IsYear first) (hl : ∀ y ∈ last, IsYear y) :
    classify c.dialect (creditLine c (yearText first last) p.name p.email) =
      .copyright first.toNat (last.getD first).toNat p := by
  have hgap := nameGap_pos hc.toFramed (yearText first last)
  have hwho : blanksThen person? 1 (creditBehind c (yearText first last) p.name p.email) = some p :=
    (blanksThen_person?_iff hp.name.trimmed hp.email hgap).mpr
      ⟨two_le_emailGap hc.toFramed hp (length_yearText_le hf hl), hp.name.plain⟩
  rw [classify_firstLine_eq hc hp.email hf hl, hwho]
  rfl

theorem dropIgnoringCase?_name {word name : Text} (n : Nat) (t : Text) (hn : 0 < n)
    (hnone : Text.dropIgnoringCase? word name = none)
    (hword : ∀ x ∈ word, Text.sameLetter x ' ' = false) :
    Text.dropIgnoringCase? word (name ++ (spaces n ++ t)) = none := by
  obtain ⟨n, rfl⟩ := Nat.exists_eq_succ_of_ne_zero hn.ne'
  exact Text.dropIgnoringCase?_append_none _ hnone hword

theorem copyright?_furtherLine {g h : Nat} (hname : Trimmed p.name) (hh : 0 < h)
    (hcopy : Text.dropIgnoringCase? "Copyright" p.name = none) :
    copyright? d (d.commentPrefix ++ (spaces g ++ (p.name ++ (spaces h ++ p.email)))) = none := by
  have hnone := dropIgnoringCase?_name h p.email hh hcopy (Text.forall_mem_of_all (by decide))
  simp only [copyright?, body?_append, Text.stripLeft_spaces_append g (hname.head_append _), hnone,
    Option.bind_eq_bind, Option.bind_some, Option.bind_none]

theorem spdx?_furtherLine {g h : Nat} (hname : Trimmed p.name) (hh : 0 < h)
    (hlicense : Text.dropIgnoringCase? "SPDX-License-Identifier:" p.name = none) :
    spdx? d (d.commentPrefix ++ (spaces g ++ (p.name ++ (spaces h ++ p.email)))) = none := by
  have hnone := dropIgnoringCase?_name h p.email hh hlicense (Text.forall_mem_of_all (by decide))
  simp only [spdx?, body?_append, Text.stripLeft_spaces_append g (hname.head_append _), hnone,
    Option.bind_eq_bind, Option.bind_some, Option.bind_none]

theorem classify_furtherLine_eq (hc : c.Readable) (hname : Trimmed p.name) (he : Address p.email)
    (hcopy : Text.dropIgnoringCase? "Copyright" p.name = none)
    (hlicense : Text.dropIgnoringCase? "SPDX-License-Identifier:" p.name = none) :
    classify c.dialect (creditLine c [] p.name p.email) =
      ((blanksThen person? c.dialect.indent.toNat (creditBehind c [] p.name p.email)).map
        Line.continuation).getD .other := by
  have hindent := c.dialect_indent_pos
  have hpos : 0 < emailGap c [] p.name := by
    have := emailGap_eq hc.toFramed [] p.name
    omega
  obtain ⟨n, hn⟩ := Nat.exists_eq_succ_of_ne_zero (nameGap_pos hc.toFramed []).ne'
  have hsep : isSeparator c.dialect (c.dialect.commentPrefix ++ creditBehind c [] p.name p.email) =
      false := by
    rw [creditBehind, hn]
    exact isSeparator_space _
  rw [classify, creditLine_eq hc, chop_creditBehind c _ _ _ he, creditStart_nil,
    ← c.dialect_commentPrefix, hsep, creditBehind, copyright?_furtherLine hname hpos hcopy,
    spdx?_furtherLine hname hpos hlicense, continuation?_append (by omega)]
  rfl

theorem indent_le_nameGap (hc : c.Framed) : c.dialect.indent ≤ nameGap c [] := by
  have hgap := nameGap_eq hc []
  rw [creditStart_nil] at hgap
  have hindent : c.dialect.indent = max 1 (min 10 (c.nameColumn - c.commentPrefix.length)) := rfl
  omega

theorem classify_furtherLine (hc : c.Readable) (hp : p.Fits c) :
    classify c.dialect (creditLine c [] p.name p.email) = .continuation p := by
  have hlicense : Text.dropIgnoringCase? "SPDX-License-Identifier:" p.name = none := by
    rw [show "SPDX-License-Identifier:".toList = "SPDX-License-Identifier".toList ++ [':'] by simp,
      Text.dropIgnoringCase?_start, hp.not_license, Option.bind_none]
  have hindent := indent_le_nameGap hc.toFramed
  have hwho : blanksThen person? c.dialect.indent.toNat (creditBehind c [] p.name p.email) =
      some p :=
    (blanksThen_person?_iff hp.name.trimmed hp.email (by omega)).mpr
      ⟨two_le_emailGap hc.toFramed hp (by decide), hp.name.plain⟩
  rw [classify_furtherLine_eq hc hp.name.trimmed hp.email hp.not_copyright hlicense, hwho]
  rfl

end Reading
end Masthead.Header
