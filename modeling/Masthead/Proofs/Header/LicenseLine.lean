import Masthead.Proofs.Header.Recognition

/-! The line with the license. It is never taken for a line that credits somebody, and where the
license is one word and its page an address in the web, all of it is read back. -/

namespace Masthead.Header
open Text (Blank Ends Word isBlank spaces)

variable {c : Config} {d : Dialect}

def licenseStart (c : Config) : Text :=
  c.commentPrefix ++ " SPDX-License-Identifier: " ++ c.spdxLicense

theorem licenseStart_append (c : Config) (t : Text) :
    licenseStart c ++ t = c.commentPrefix ++
      (" SPDX-License-Identifier:".toList ++ (spaces 1 ++ (c.spdxLicense ++ t))) := by
  have hwords : " SPDX-License-Identifier: ".toList = " SPDX-License-Identifier:".toList ++
      spaces 1 := by
    simp [spaces]
  rw [licenseStart, hwords]
  simp only [List.append_assoc]

def addressColumns (c : Config) : List Column :=
  (if c.licenseUrl.isEmpty then [] else [⟨c.licenseUrl, c.licenseUrlColumn⟩]) ++
    (if c.maintainerEmail.isEmpty then [] else [⟨c.maintainerEmail, c.maintainerColumn⟩])

theorem licenseColumns_eq (c : Config) :
    licenseColumns c = ⟨licenseStart c, 0⟩ :: addressColumns c := rfl

theorem addressColumns_nonneg (hc : c.Writable) : ∀ x ∈ addressColumns c, 0 ≤ x.position := by
  intro x hx
  rcases List.mem_append.mp hx with hx | hx
  · split_ifs at hx
    · simp at hx
    · rw [List.mem_singleton.mp hx]
      exact hc.url_nonneg
  · split_ifs at hx
    · simp at hx
    · rw [List.mem_singleton.mp hx]
      exact hc.maintainer_nonneg

theorem licenseStart_pos (hc : c.Framed) : 0 < (licenseStart c).length := by
  have hsign := List.length_pos_iff.mpr hc.sign_ne
  simp only [licenseStart, List.length_append]
  omega

theorem exists_licenseLine_eq (hc : c.Writable) :
    ∃ t, Ends t ∧ licenseLine c =
      c.commentPrefix ++ (" SPDX-License-Identifier:".toList ++
        (spaces 1 ++ (c.spdxLicense ++ t))) := by
  refine ⟨Layout.place (licenseStart c).length (Layout.sorted (addressColumns c)), ?_, ?_⟩
  · by_cases hne : Layout.sorted (addressColumns c) = []
    · rw [hne]
      exact Text.ends_nil
    · obtain ⟨r, hr⟩ := Layout.place_eq_space (licenseStart_pos hc.toFramed) hne
      rw [hr]
      exact Text.ends_spaces (Nat.succ_pos 0) r
  · rw [licenseLine, licenseColumns_eq, Layout.line_start _ (addressColumns_nonneg hc)]
    exact licenseStart_append c _

theorem stripLeft_license (t : Text) :
    Text.stripLeft (" SPDX-License-Identifier:".toList ++ t) =
      "SPDX-License-Identifier:".toList ++ t := by
  have hword : Word "SPDX-License-Identifier:".toList := by decide
  have hwords : " SPDX-License-Identifier:".toList ++ t =
      [' '] ++ ("SPDX-License-Identifier:".toList ++ t) := by simp
  rw [hwords, Text.stripLeft_blank_append (by simp [Blank]; decide),
    Text.stripLeft_eq_self (hword.head t)]

theorem copyright?_license (t : Text) :
    copyright? d (d.commentPrefix ++ (" SPDX-License-Identifier:".toList ++ t)) = none := by
  have hletter : Text.sameLetter 'C' 'S' = false := by decide
  have hnone : Text.dropIgnoringCase? "Copyright" ("SPDX-License-Identifier:".toList ++ t) = none :=
    Text.dropIgnoringCase?_cons_ne hletter "opyright" ("PDX-License-Identifier:".toList ++ t)
  simp only [copyright?, body?_append, stripLeft_license, hnone, Option.bind_eq_bind,
    Option.bind_some, Option.bind_none]

theorem blank_of_word_isEmpty {t : Text} (h : (word (Text.stripLeft t)).isEmpty = true) :
    Blank t := by
  intro x hx
  by_contra hblank
  have hne : Text.stripLeft t ≠ [] := by
    intro hnil
    exact hblank (List.dropWhile_eq_nil_iff.mp hnil x hx)
  have hhead := List.head_dropWhile_not isBlank hne
  have hword : word (Text.stripLeft t) ≠ [] := by
    rw [word, ne_eq, List.takeWhile_eq_nil_iff, not_forall]
    exact ⟨List.length_pos_iff.mpr hne, by simpa [Text.stripLeft, List.getElem_zero] using hhead⟩
  exact hword (List.isEmpty_iff.mp h)

theorem spdx?_license (t : Text) :
    (∃ license url maintainer,
      spdx? d (d.commentPrefix ++ (" SPDX-License-Identifier:".toList ++ t)) =
        some (.spdx license url maintainer)) ∨
    (spdx? d (d.commentPrefix ++ (" SPDX-License-Identifier:".toList ++ t)) = none ∧ Blank t) := by
  simp only [spdx?, body?_append, Text.dropIgnoringCase?_append, stripLeft_license,
    Option.bind_eq_bind, Option.bind_some]
  split_ifs with hempty
  · exact Or.inr ⟨rfl, blank_of_word_isEmpty hempty⟩
  · left
    split <;> exact ⟨_, _, _, rfl⟩

theorem continuation?_eq_none {t : Text} (hd : 0 ≤ d.indent) (ht : '@' ∉ t) :
    continuation? d (d.commentPrefix ++ t) = none := by
  rw [continuation?_append hd]
  cases hwho : blanksThen person? d.indent.toNat t with
  | none => rfl
  | some who =>
    obtain ⟨b, r, rfl, -, -, hr⟩ := blanksThen_some hwho
    exact absurd (List.mem_append_right b (mem_of_person?_some hr)) ht

theorem chop_license (sign r : Text) :
    chop (sign ++ (" SPDX-License-Identifier:".toList ++ r)) =
      sign ++ (" SPDX-License-Identifier:".toList ++ chop r) := by
  have hwords (t : Text) : " SPDX-License-Identifier:".toList ++ t =
      " SPDX-License-Identifier".toList ++ ':' :: t := by simp
  calc
    chop (sign ++ (" SPDX-License-Identifier:".toList ++ r)) =
        chop ((sign ++ " SPDX-License-Identifier".toList) ++ ':' :: r) := by
      rw [hwords, List.append_assoc]
    _ = (sign ++ " SPDX-License-Identifier".toList) ++ ':' :: chop r :=
      chop_append_cons _ (by decide) r
    _ = sign ++ (" SPDX-License-Identifier:".toList ++ chop r) := by
      rw [hwords, List.append_assoc]

theorem classify_licenseLine (hc : c.Writable) :
    classify c.dialect (licenseLine c) = .other ∨
      ∃ license url maintainer, classify c.dialect (licenseLine c) =
      .spdx license url maintainer := by
  obtain ⟨t, -, ht⟩ := exists_licenseLine_eq hc
  rw [classify, ht, chop_license, ← c.dialect_commentPrefix]
  generalize chop (spaces 1 ++ (c.spdxLicense ++ t)) = r
  have hsep : isSeparator c.dialect
      (c.dialect.commentPrefix ++ (" SPDX-License-Identifier:".toList ++ r)) = false :=
      isSeparator_space _
  rw [hsep, copyright?_license]
  rcases spdx?_license (d := c.dialect) r with ⟨license, url, maintainer, hspdx⟩ | ⟨hspdx, hblank⟩
  · rw [hspdx]
    exact Or.inr ⟨license, url, maintainer, rfl⟩
  · have hat : '@' ∉ " SPDX-License-Identifier:".toList ++ r := by
      rw [List.mem_append, not_or]
      exact ⟨by decide, fun h => absurd (hblank _ h) (by decide)⟩
    have hindent := c.dialect_indent_pos
    rw [hspdx, continuation?_eq_none (by omega) hat]
    exact Or.inl rfl

theorem licenseLine_bare (hlicense : c.spdxLicense = []) (hurl : c.licenseUrl = [])
    (hmaintainer : c.maintainerEmail = []) :
    licenseLine c = c.commentPrefix ++ (" SPDX-License-Identifier:".toList ++ spaces 1) := by
  have hcolumns : addressColumns c = [] := by simp [addressColumns, hurl, hmaintainer]
  have hstart := licenseStart_append c []
  rw [hlicense, List.append_nil, List.append_nil, List.append_nil] at hstart
  rw [licenseLine, licenseColumns_eq, hcolumns, Layout.line_start _ (by simp)]
  simpa [Layout.sorted, Layout.place] using hstart

theorem classify_licenseLine_bare (hlicense : c.spdxLicense = []) (hurl : c.licenseUrl = [])
    (hmaintainer : c.maintainerEmail = []) : classify c.dialect (licenseLine c) = .other := by
  have hline := licenseLine_bare hlicense hurl hmaintainer
  rw [← c.dialect_commentPrefix] at hline
  have hchop : chop (spaces 1) = spaces 1 := by decide
  have hspdx : spdx? c.dialect (c.dialect.commentPrefix ++
      (" SPDX-License-Identifier:".toList ++ spaces 1)) = none := by
    simp only [spdx?, body?_append, Text.dropIgnoringCase?_append, stripLeft_license,
      Option.bind_eq_bind, Option.bind_some]
    rfl
  have hindent := c.dialect_indent_pos
  have hsep : isSeparator c.dialect
      (c.dialect.commentPrefix ++ (" SPDX-License-Identifier:".toList ++ spaces 1)) = false :=
      isSeparator_space _
  rw [classify, hline, chop_license, hchop, hsep, copyright?_license, hspdx,
    continuation?_eq_none (by omega) (by decide)]
  rfl

theorem spdx?_word {license t : Text} (hl : Trimmed license) (ht : Ends t) :
    ∃ url maintainer, spdx? d (d.commentPrefix ++
      (" SPDX-License-Identifier:".toList ++ (spaces 1 ++ (license ++ t)))) =
        some (.spdx (word license) url maintainer) := by
  have hlicense : Text.stripLeft (spaces 1 ++ (license ++ t)) = license ++ t :=
    Text.stripLeft_spaces_append 1 (hl.head_append _)
  have hword : (word license).isEmpty = false := by
    obtain ⟨x, rest, hx⟩ := List.exists_cons_of_ne_nil hl.ne_nil
    have hhead : isBlank x = false := hl.head x (by simp [hx])
    simp [hx, word, hhead]
  simp only [spdx?, body?_append, Text.dropIgnoringCase?_append, stripLeft_license,
    Option.bind_eq_bind, Option.bind_some, hlicense, word_append_ends _ ht, hword,
    Bool.false_eq_true, if_false]
  split <;> exact ⟨_, _, rfl⟩

theorem classify_licenseLine_word (hc : c.Writable) (hl : Trimmed c.spdxLicense) :
    ∃ url maintainer, classify c.dialect (licenseLine c) =
    .spdx (word c.spdxLicense) url maintainer := by
  obtain ⟨t, ht, hline⟩ := exists_licenseLine_eq hc
  have hlast : ∀ x ∈ (spaces 1 ++ c.spdxLicense).getLast?, isBlank x = false := by
    intro x hx
    exact hl.last x (by rwa [List.getLast?_append_of_ne_nil _ hl.ne_nil] at hx)
  have hchop : chop (spaces 1 ++ (c.spdxLicense ++ t)) = spaces 1 ++ (c.spdxLicense ++ chop t) := by
    have h := chop_append_solid (by simp [hl.ne_nil]) hlast t
    simpa only [List.append_assoc] using h
  have hends : Ends (chop t) := ht.of_prefix (chop_isPrefix t)
  obtain ⟨url, maintainer, hspdx⟩ := spdx?_word (d := c.dialect) hl hends
  have hsep : isSeparator c.dialect (c.dialect.commentPrefix ++
      (" SPDX-License-Identifier:".toList ++
      (spaces 1 ++ (c.spdxLicense ++ chop t)))) = false := isSeparator_space _
  refine ⟨url, maintainer, ?_⟩
  rw [classify, hline, chop_license, hchop, ← c.dialect_commentPrefix, hsep,
    copyright?_license, hspdx]
  rfl

/-! Reading the license -/

theorem url?_append {u rest t : Text} (hu : Word u) (hrest : rest ≠ [])
    (hweb : u = "http://".toList ++ rest ∨ u = "https://".toList ++ rest) (ht : Ends t) :
    url? (u ++ t) = some u := by
  obtain ⟨x, rest, rfl⟩ := List.exists_cons_of_ne_nil hrest
  have hhttp (s : Text) : Text.dropIgnoringCase? "http" ("http".toList ++ s) = some s :=
    Text.dropIgnoringCase?_append _ _
  have hslashes (s : Text) : Text.drop? "://" ("://".toList ++ s) = some s := Text.drop?_append _ _
  rw [url?, word_append hu.solid ht]
  rcases hweb with h | h
  · have hs : Text.dropIgnoringCase? ['s'] ("://".toList ++ x :: rest) = none :=
      Text.dropIgnoringCase?_cons_ne (by decide) [] ("//".toList ++ x :: rest)
    rw [show "http://".toList ++ x :: rest = "http".toList ++ ("://".toList ++ x :: rest) by simp]
      at h
    simp only [h, hhttp, hs, Option.getD_none, hslashes]
  · have hs : Text.dropIgnoringCase? ['s'] ('s' :: ("://".toList ++ x :: rest)) =
        some ("://".toList ++ x :: rest) := Text.dropIgnoringCase?_append ['s'] _
    rw [show "https://".toList ++ x :: rest = "http".toList ++ 's' :: ("://".toList ++ x :: rest)
      by simp] at h
    simp only [h, hhttp, hs, Option.getD_some, hslashes]

def AddressBehind (c : Config) (t : Text) : Prop :=
  (c.maintainerEmail = [] ∧ t = []) ∨
    (Address c.maintainerEmail ∧ ∃ h, 0 < h ∧ t = spaces h ++ c.maintainerEmail)

theorem AddressBehind.ends {t : Text} (h : AddressBehind c t) : Ends t := by
  rcases h with ⟨-, rfl⟩ | ⟨-, n, hn, rfl⟩
  · exact Text.ends_nil
  · exact Text.ends_spaces hn _

theorem AddressBehind.address? {t : Text} (h : AddressBehind c t) :
    address? (Text.stripLeft t) =
      if c.maintainerEmail = [] then none else some c.maintainerEmail := by
  rcases h with ⟨hnil, rfl⟩ | ⟨hm, n, hn, rfl⟩
  · rw [if_pos hnil]
    rfl
  · have haddress := address?_append hm Text.ends_nil
    have hhead := hm.word.head []
    rw [List.append_nil] at haddress hhead
    rw [if_neg hm.word.ne_nil, Text.stripLeft_spaces_append n hhead, haddress]

theorem licenseLine_eq (hc : c.Usable) (hl : c.Licensed) :
    ∃ g t, 0 < g ∧ AddressBehind c t ∧
      licenseLine c = c.commentPrefix ++ (" SPDX-License-Identifier:".toList ++
        (spaces 1 ++ (c.spdxLicense ++ (spaces g ++ (c.licenseUrl ++ t))))) := by
  have hpos := licenseStart_pos hc.toFramed
  have hurl := hl.url_word.ne_nil
  refine ⟨Layout.gap (licenseStart c).length c.licenseUrlColumn, ?_⟩
  rcases hl.maintainer with hm | hm
  · refine ⟨[], Layout.gap_pos hpos _, Or.inl ⟨hm, rfl⟩, ?_⟩
    have hcolumns : addressColumns c = [⟨c.licenseUrl, c.licenseUrlColumn⟩] := by
      simp [addressColumns, hurl, hm]
    rw [licenseLine, licenseColumns_eq, hcolumns, Layout.line_pair _ hc.url_nonneg,
      licenseStart_append, List.append_nil]
  · have hcolumns : addressColumns c =
        [⟨c.licenseUrl, c.licenseUrlColumn⟩, ⟨c.maintainerEmail, c.maintainerColumn⟩] := by
      simp [addressColumns, hurl, hm.word.ne_nil]
    let h := Layout.gap ((licenseStart c).length +
      Layout.gap (licenseStart c).length c.licenseUrlColumn + c.licenseUrl.length)
      c.maintainerColumn
    have hh : 0 < h := Layout.gap_pos (by omega) _
    refine ⟨spaces h ++ c.maintainerEmail, Layout.gap_pos hpos _, Or.inr ⟨hm, h, hh, rfl⟩, ?_⟩
    rw [licenseLine, licenseColumns_eq, hcolumns,
      Layout.line_triple _ hc.url_nonneg hc.url_le_maintainer, licenseStart_append]

theorem chop_licenseLine (hl : c.Licensed) {s t : Text} (ht : AddressBehind c t) :
    chop (s ++ (c.licenseUrl ++ t)) = s ++ (c.licenseUrl ++ t) := by
  rcases ht with ⟨-, rfl⟩ | ⟨hm, h, -, rfl⟩
  · rw [List.append_nil]
    exact chop_append_word s hl.url_word
  · have hchop := chop_append_word (s ++ c.licenseUrl ++ spaces h) hm.word
    simpa only [List.append_assoc] using hchop

theorem spdx?_licenseLine (hl : c.Licensed) {g : Nat} {t : Text} (hg : 0 < g)
    (ht : AddressBehind c t) :
    spdx? d (d.commentPrefix ++ (" SPDX-License-Identifier:".toList ++
        (spaces 1 ++ (c.spdxLicense ++ (spaces g ++ (c.licenseUrl ++ t)))))) =
      some (.spdx c.spdxLicense (some c.licenseUrl)
        (if c.maintainerEmail = [] then none else some c.maintainerEmail)) := by
  obtain ⟨rest, hrest, hweb⟩ := hl.url
  have hends : Ends (spaces g ++ (c.licenseUrl ++ t)) := Text.ends_spaces hg _
  have hlicense : Text.stripLeft
      (spaces 1 ++ (c.spdxLicense ++ (spaces g ++ (c.licenseUrl ++ t)))) =
      c.spdxLicense ++ (spaces g ++ (c.licenseUrl ++ t)) := by
    rw [Text.stripLeft_spaces_append 1 (hl.license.head _)]
  have hurl : Text.stripLeft (spaces g ++ (c.licenseUrl ++ t)) = c.licenseUrl ++ t := by
    rw [Text.stripLeft_spaces_append g (hl.url_word.head _)]
  have hne : c.spdxLicense.isEmpty = false := by simpa using hl.license.ne_nil
  simp only [spdx?, body?_append, Text.dropIgnoringCase?_append, stripLeft_license,
    Option.bind_eq_bind, Option.bind_some, hlicense, word_append hl.license.solid hends, hne,
    Bool.false_eq_true, if_false, afterWord_append hl.license.solid hends, hurl,
    url?_append hl.url_word hrest hweb ht.ends, afterWord_append hl.url_solid ht.ends, ht.address?]

theorem classify_licenseLine_eq (hc : c.Usable) (hl : c.Licensed) :
    classify c.dialect (licenseLine c) =
      .spdx c.spdxLicense (some c.licenseUrl)
        (if c.maintainerEmail = [] then none else some c.maintainerEmail) := by
  obtain ⟨g, t, hg, ht, hline⟩ := licenseLine_eq hc hl
  have hchop : chop (licenseLine c) = licenseLine c := by
    have h := chop_licenseLine (s := c.commentPrefix ++ " SPDX-License-Identifier:".toList ++
      spaces 1 ++ c.spdxLicense ++ spaces g) hl ht
    rw [hline]
    simpa only [List.append_assoc] using h
  have hsep : isSeparator c.dialect (c.dialect.commentPrefix ++
      (" SPDX-License-Identifier:".toList ++
      (spaces 1 ++ (c.spdxLicense ++ (spaces g ++ (c.licenseUrl ++ t)))))) = false :=
    isSeparator_space _
  rw [classify, hchop, hline, ← Config.dialect_commentPrefix, hsep, copyright?_license,
    spdx?_licenseLine hl hg ht]
  rfl

end Masthead.Header
