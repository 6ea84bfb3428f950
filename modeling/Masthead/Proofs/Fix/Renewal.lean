import Masthead.Proofs.Fix.Step
import Masthead.Proofs.Header.Remarks

/-! Headers that are written anew. Of the header that a run finds it takes over people and years,
and nothing else: the license is read off the new lines, and lines that say nothing are gone. What
stands below the header stays. -/

namespace Masthead

namespace Header
variable {c : Config} {people : List Contributor} {first : Int} {last : Option Int}

theorem exists_parse?_generate (hc : c.Ruled) (hsign : '\n' ∉ c.commentPrefix)
    (people : List Contributor) (first : Int) (last : Option Int) :
    ∃ h, parse? c.dialect (generate c people first last) = some h := by
  rw [← Option.isSome_iff_exists, parse?_generate_isSome_iff (line_separatorLine hc hsign)]
  exact classify_separatorLine hc rfl

def creditLines (c : Config) (people : List Contributor) (first : Int) (last : Option Int) :
    List Text :=
  (credited c (yearText first last) (people.take c.maxContributors)).map Layout.line

theorem between_eq (c : Config) (people : List Contributor) (first : Int) (last : Option Int) :
    between c people first last = creditLines c people first last ++ [licenseLine c] := by
  rw [between, columns, List.map_append]
  rfl

def stated? (d : Dialect) (lines : List Text) : Option Text :=
  (lines.filterMap fun l => (classify d l).license?).getLast?

theorem stated?_between (d : Dialect) :
    stated? d (between c people first last) =
      (classify d (licenseLine c)).license?.or (stated? d (creditLines c people first last)) := by
  rw [stated?, stated?, between_eq, List.filterMap_append, List.getLast?_append,
    List.filterMap_cons]
  cases (classify d (licenseLine c)).license? <;> rfl

theorem parse?_generate_spdxLicense (hc : c.Writable) (hp : ∀ p ∈ people, p.OneLine) {h : Header}
    (hparse : parse? c.dialect (generate c people first last) = some h) :
    h.spdxLicense = stated? c.dialect (between c people first last) := by
  have hfold := @parse?_generate_foldl c people first last hc hp c.dialect rfl [] Text.follows_nil
  rw [List.append_nil, hparse] at hfold
  obtain rfl := Option.some.inj hfold
  rw [foldl_absorb_spdxLicense, List.filterMap_map, Option.or_none]
  rfl

/-! What a header says whose license may be any text, one with line feeds too. The header for nobody
says what this text adds. -/

theorem creditLines_cons {p : Contributor} {ps : List Contributor}
    (htake : people.take c.maxContributors = p :: ps) :
    creditLines c people first last =
      creditLine c (yearText first last) p.name p.email :: ps.map fun q =>
      creditLine c [] q.name q.email := by
  rw [creditLines, htake, credited, List.map_cons, List.map_map]
  rfl

theorem generate_of_take_eq_nil (htake : people.take c.maxContributors = []) :
    generate c people first last = generate c [] 0 none := by
  rw [generate_eq, generate_eq, between, between, columns, columns, htake, List.take_nil]
  rfl

theorem oneLine_of_classify {d : Dialect} {l : Text} {p : Contributor}
    (hp : (classify d l).people = [p]) :
    p.OneLine := by
  have hmem : p ∈ (classify d l).people := by simp [hp]
  obtain ⟨s, hs⟩ := classify_people hmem
  exact person?_oneLine hs

theorem ReadBack.plain (hsign : '\n' ∉ c.commentPrefix)
    (hread : ReadBack c first last (people.take c.maxContributors)) :
    ∀ l ∈ creditLines c people first last, '\n' ∉ l ∧ classify c.dialect l ≠ .separator := by
  intro l hl
  cases htake : people.take c.maxContributors with
  | nil => simp [creditLines, htake, credited] at hl
  | cons p ps =>
    rw [htake] at hread
    rw [creditLines_cons htake, List.mem_cons, List.mem_map] at hl
    rcases hl with rfl | ⟨q, hq, rfl⟩
    · have hone : p.OneLine := oneLine_of_classify (by rw [hread.1]; rfl)
      exact ⟨line_creditLine hsign (word_yearText first last).line hone, by simp [hread.1]⟩
    · have hone : q.OneLine := oneLine_of_classify (by rw [hread.2 q hq]; rfl)
      exact ⟨line_creditLine hsign List.not_mem_nil hone, by simp [hread.2 q hq]⟩

theorem interior?_generate (hsep : '\n' ∉ separatorLine c)
    (hplain : ∀ l ∈ creditLines c people first last, '\n' ∉ l ∧ classify c.dialect l ≠ .separator) :
    interior? c.dialect (Text.lines (generate c people first last)).tail =
      (interior? c.dialect (Text.lines (generate c [] 0 none)).tail).map
        ((creditLines c people first last).map (classify c.dialect) ++ ·) := by
  have htail (people : List Contributor) (first : Int) (last : Option Int)
      (hline : ∀ l ∈ creditLines c people first last, '\n' ∉ l) :
      (Text.lines (generate c people first last)).tail =
        creditLines c people first last ++ (Text.lines (licenseLine c) ++ [separatorLine c]) := by
    rw [lines_generate hsep, between_eq, Text.lines_unlines_concat hline, List.tail_cons,
      List.append_assoc]
  have hnobody : creditLines c [] 0 none = [] := by simp [creditLines, credited]
  rw [htail people first last fun l hl => (hplain l hl).1,
    htail [] 0 none (by simp [hnobody]), hnobody, List.nil_append, interior?_plain_append
    fun l hl => (hplain l hl).2]

theorem parse?_generate_credits (hsep : '\n' ∉ separatorLine c) (hsign : '\n' ∉ c.commentPrefix)
    {h bare : Header} (hread : ReadBack c first last (people.take c.maxContributors))
    (hfirst : first.toNat ≠ 0) (hne : people.take c.maxContributors ≠ [])
    (hbare : parse? c.dialect (generate c [] 0 none) = some bare)
    (hparse : parse? c.dialect (generate c people first last) = some h) :
    h.contributors = people.take c.maxContributors ++ bare.contributors ∧
    h.yearStart = first.toNat ∧
      h.yearEnd = (last.getD first).toNat := by
  obtain ⟨said, hsaid, rfl⟩ := parse?_some hbare
  obtain ⟨inner, hinner, rfl⟩ := parse?_some hparse
  rw [interior?_generate hsep (hread.plain hsign), hsaid, Option.map_some, Option.some.injEq]
    at hinner
  obtain ⟨p, ps, htake⟩ := List.exists_cons_of_ne_nil hne
  rw [htake] at hread ⊢
  have hlines : (creditLines c people first last).map (classify c.dialect) =
      .copyright first.toNat (last.getD first).toNat p :: ps.map Line.continuation := by
    rw [creditLines_cons htake, List.map_cons, hread.1, List.map_map]
    exact congrArg _ (List.map_congr_left hread.2)
  rw [← hinner, hlines, List.cons_append]
  refine ⟨?_, foldl_absorb_copyright _ _ p rfl hfirst⟩
  rw [foldl_absorb_contributors, foldl_absorb_contributors, List.flatMap_cons, List.flatMap_append,
    List.flatMap_map]
  simp [Line.people]

theorem parse?_generate_nobody (hc : c.Writable) {bare : Header}
    (hbare : parse? c.dialect (generate c [] 0 none) = some bare) :
    bare.contributors = [] ∧ bare.yearStart = 0 := by
  have hfold := @parse?_generate_foldl c [] 0 none hc (by simp) c.dialect rfl [] Text.follows_nil
  have hline : between c [] 0 none = [licenseLine c] := by
    simp [between_eq, creditLines, credited]
  rw [List.append_nil, hbare, hline] at hfold
  obtain rfl := Option.some.inj hfold
  rcases classify_licenseLine hc with hx | ⟨_, _, _, hx⟩
  · simp [hx, absorb]
  · simp [hx, absorb]

end Header

namespace Fixer
open Header (parse? generate withUser)
open Source (splitPreamble)
variable {f : Fixer} {content : Text} {old : Header}

theorem exists_body_renewed (hc : f.config.Ruled)
    (hparse : parse? f.config.dialect (splitPreamble content).2 = some old) (past : Past) :
    ∃ below, Text.Follows below ∧
      splitPreamble (f.fix past content).text =
        ((splitPreamble content).1, f.header past content ++ below) := by
  obtain ⟨below, hb, hbody, hreplace⟩ := Header.replace_behind hparse
  obtain ⟨-, x, rest, hsign⟩ := Header.parse?_sign hparse
  rcases fix_cases f past content with ⟨-, htext, h, hparse', hraw⟩ | ⟨-, htext⟩
  · rw [hparse] at hparse'
    obtain rfl := Option.some.inj hparse'
    exact ⟨below, hb, by rw [htext, ← hraw, ← hbody]⟩
  · obtain ⟨y, new, hy, hnew⟩ :=
      Header.exists_generate_eq hc (f.people past content) (f.years past content).1
      (some (f.years past content).2)
    have hclosed := Source.closed_splitPreamble (s := content) (by simp [hsign])
    have hplain : y ∉ ['#', '!', Source.byteOrderMark] := by
      simp only [Config.separatorChars, List.mem_cons, List.not_mem_nil, or_false] at hy
      rcases hy with rfl | rfl | rfl <;> decide
    refine ⟨_, (Header.apart_setOff hb).follows, ?_⟩
    -- the comment sign may look like a preamble, but the old header behind it was none
    rw [htext, hparse, hreplace, Source.joinPreamble, hclosed.closePreamble_eq, header, hnew,
      List.append_assoc, List.cons_append]
    exact Source.splitPreamble_exchange hsign hplain

theorem exists_parse?_fix (hc : f.config.Ruled)
    (hparse : parse? f.config.dialect (splitPreamble content).2 = some old) (past : Past) :
    ∃ new, parse? f.config.dialect (splitPreamble (f.fix past content).text).2 = some new ∧
      parse? f.config.dialect (f.header past content) = some new := by
  obtain ⟨new, hnew⟩ := Header.exists_parse?_generate hc (Header.parse?_sign hparse).1
    (f.people past content)
    (f.years past content).1 (some (f.years past content).2)
  obtain ⟨below, hb, hbody⟩ := exists_body_renewed hc hparse past
  exact ⟨new, by rw [hbody]; exact Header.parse?_append hnew hb, hnew⟩

/-- A header with years is written anew for its people and years under the configuration; its
license is not taken over. The new header is found again, and its license is the last one that these
lines state. -/
theorem parse?_fix_renewed (hc : f.config.Ruled) (hempty : f.config.spdxLicense = [])
    (hparse : parse? f.config.dialect (splitPreamble content).2 = some old)
    (hyear : old.yearStart ≠ 0) (past : Past) :
    let people := withUser old.contributors f.user
    let last := some (old.lastYear (some f.year))
    ∃ new, parse? f.config.dialect (splitPreamble (f.fix past content).text).2 = some new ∧
      parse? f.config.dialect (generate f.config people old.yearStart last) = some new ∧
      (f.config.Writable → (∀ p ∈ f.user, p.OneLine) →
        new.spdxLicense =
        (Header.classify f.config.dialect (Header.licenseLine f.config)).license?.or
          (Header.stated? f.config.dialect
            (Header.creditLines f.config people old.yearStart last))) ∧
      (f.config.licenseUrl = [] → f.config.maintainerEmail = [] →
        (Header.classify f.config.dialect (Header.licenseLine f.config)).license? = none) := by
  intro people last
  obtain ⟨new, hfix, hnew⟩ := exists_parse?_fix hc hparse past
  have hcurrent : f.current? content = some old := current?_eq_some.mpr ⟨hparse, hyear⟩
  have hheader : f.header past content = generate f.config people old.yearStart last :=
    header_of_current? hcurrent
  rw [hheader] at hnew
  refine ⟨new, hfix, hnew, fun hwritable huser => ?_, fun hurl hmaintainer => ?_⟩
  · have hpeople : ∀ p ∈ people, p.OneLine := fun p hp =>
      (Header.mem_of_mem_withUser hp).elim (Header.parse?_oneLine hparse p) (huser p)
    rw [Header.parse?_generate_spdxLicense hwritable hpeople hnew, Header.stated?_between]
  · rw [Header.classify_licenseLine_bare hempty hurl hmaintainer]
    rfl

section Examples

def unlicensed : Fixer := { config := .standard [] none, user := some .jane, year := 2025 }

def licensed : Text :=
  "//---\n// Copyright (c) 2020  Jane Doe  jane@example.com\n".toList ++
    "// SPDX-License-Identifier: MIT\n//---\nx\n".toList

theorem unlicensed_readable : unlicensed.config.Readable :=
  Config.standard_readable (by simp) (by decide)

theorem parse?_licensed :
    ∃ old, parse? unlicensed.config.dialect (splitPreamble licensed).2 = some old ∧
    old.yearStart = 2020 ∧
      old.lastYear (some unlicensed.year) = 2025 ∧ old.contributors = [.jane] ∧
      old.spdxLicense = some "MIT".toList := by
  have hread : (parse? unlicensed.config.dialect (splitPreamble licensed).2).map
      (fun h => (h.yearStart, h.lastYear (some unlicensed.year), h.contributors, h.spdxLicense)) =
        some (2020, 2025, [.jane], some "MIT".toList) := by decide
  obtain ⟨old, hparse, hold⟩ := Option.map_eq_some_iff.mp hread
  simp only [Prod.mk.injEq] at hold
  exact ⟨old, hparse, hold⟩

theorem parse?_fix_renewed_licensed :
    ∃ old new, unlicensed.config.Ruled ∧ unlicensed.config.spdxLicense = [] ∧
      parse? unlicensed.config.dialect (splitPreamble licensed).2 = some old ∧ old.yearStart ≠ 0 ∧
      old.spdxLicense = some "MIT".toList ∧
      parse? unlicensed.config.dialect (splitPreamble (unlicensed.fix {} licensed).text).2 =
      some new ∧
      new.spdxLicense = Header.stated? unlicensed.config.dialect
        (Header.creditLines unlicensed.config [.jane] 2020 (some 2025)) := by
  have hwritable := unlicensed_readable.toWritable
  obtain ⟨old, hparse, hfirst, hlast, hpeople, hlicense⟩ := parse?_licensed
  have hyear : old.yearStart ≠ 0 := by simp [hfirst]
  obtain ⟨new, hnew, -, hstated, hnone⟩ :=
    parse?_fix_renewed hwritable.ruled (by decide) hparse hyear {}
  refine ⟨old, new, hwritable.ruled, by decide, hparse, hyear, hlicense, hnew, ?_⟩
  rw [hstated hwritable (by decide), hnone (by decide) rfl, Option.none_or, hfirst, hpeople, hlast]
  rfl

theorem fix_erases_license :
    ∃ old new, unlicensed.config.Ruled ∧ unlicensed.config.spdxLicense = [] ∧
      parse? unlicensed.config.dialect (splitPreamble licensed).2 = some old ∧ old.yearStart ≠ 0 ∧
      old.spdxLicense = some "MIT".toList ∧
      parse? unlicensed.config.dialect (splitPreamble (unlicensed.fix {} licensed).text).2 =
      some new ∧
      new.spdxLicense = none := by
  have hreadable := unlicensed_readable
  obtain ⟨old, hparse, hfirst, hlast, hpeople, hlicense⟩ := parse?_licensed
  have hyear : old.yearStart ≠ 0 := by simp [hfirst]
  obtain ⟨new, hnew, hheader⟩ := exists_parse?_fix hreadable.ruled hparse {}
  refine ⟨old, new, hreadable.ruled, by decide, hparse, hyear, hlicense, hnew, ?_⟩
  rw [header_of_current? (current?_eq_some.mpr ⟨hparse, hyear⟩), Header.update, hfirst, hpeople,
    hlast] at hheader
  have hfits : ∀ p ∈ withUser [.jane] unlicensed.user, p.Fits unlicensed.config := by decide
  have hread := @Header.parse?_generate_absorb _ _ 2020 (some 2025) hreadable (by decide) hfits
    (by decide) (by decide)
    [] Text.follows_nil
  rw [List.append_nil, hheader, Header.classify_licenseLine_bare (by decide) (by decide) rfl]
    at hread
  rw [Option.some.inj hread]
  rfl

end Examples

/-! Headers without a year -/

theorem fix_of_yearStart_eq_zero
    (hparse : parse? f.config.dialect (splitPreamble content).2 = some old)
    (hyear : old.yearStart = 0) :
    ∃ tail, Text.Follows tail ∧ (splitPreamble content).2 = old.raw ++ tail ∧ ∀ past,
      f.fix past content =
        ⟨(splitPreamble content).1 ++ (f.newHeader past old.contributors ++ Header.setOff tail),
          .created, [.create]⟩ := by
  obtain ⟨tail, htail, hbody, hreplace⟩ := Header.replace_behind hparse
  obtain ⟨-, x, rest, hsign⟩ := Header.parse?_sign hparse
  have hclosed := Source.closed_splitPreamble (s := content) (by simp [hsign])
  have hcurrent : f.current? content = none := by simp [current?, hparse, hyear]
  refine ⟨tail, htail, hbody, fun past => ?_⟩
  simp only [fix, hcurrent, create, existing_eq hparse, hparse, hreplace, Source.joinPreamble,
    hclosed.closePreamble_eq]

theorem parse?_of_all_other {d : Dialect} {s opening closing : Text} {inner below : List Text}
    (hlines : Text.lines s = opening :: (inner ++ closing :: below))
    (hopening : Header.classify d opening = .separator)
    (hclosing : Header.classify d closing = .separator)
    (hinner : ∀ l ∈ inner, Header.classify d l = .other) :
    parse? d s = some
      { raw := Text.unlines (opening :: (inner ++ [closing])), endLine := inner.length + 2 } := by
  rw [Header.parse?_of_lines hlines hopening hclosing fun l hl => by simp [hinner l hl]]
  exact congrArg some (Header.foldl_absorb_other _ _ (by simpa using hinner))

/-- A block of lines between separators counts as a header, even if none of the lines says anything.
A new header takes its place that credits nobody for it, and what stands below the block stays. -/
theorem fix_of_all_other {opening closing : Text} {inner below : List Text}
    (hlines : Text.lines (splitPreamble content).2 = opening :: (inner ++ closing :: below))
    (hopening : Header.classify f.config.dialect opening = .separator)
    (hclosing : Header.classify f.config.dialect closing = .separator)
    (hinner : ∀ l ∈ inner, Header.classify f.config.dialect l = .other) (past : Past) :
    ∃ tail, Text.Follows tail ∧ (Text.lines tail).tail = below ∧
      (splitPreamble content).2 = Text.unlines (opening :: (inner ++ [closing])) ++ tail ∧
      f.fix past content =
        ⟨(splitPreamble content).1 ++ (f.newHeader past [] ++ Header.setOff tail), .created,
          [.create]⟩ := by
  have hparse := parse?_of_all_other hlines hopening hclosing hinner
  obtain ⟨tail, htail, hbody, hfix⟩ := fix_of_yearStart_eq_zero hparse rfl
  refine ⟨tail, htail, ?_, hbody, hfix past⟩
  have hsplit := Text.lines_unlines_append (List.cons_ne_nil _ _)
    (Header.notMem_of_lines hlines) htail
  rw [← hbody, hlines] at hsplit
  simpa using hsplit.symm

section Examples

def boxed : Text := "//---\n// Notes on the parser\n//---\nx\n".toList

theorem lines_boxed :
    Text.lines (splitPreamble boxed).2 =
      "//---".toList :: (["// Notes on the parser".toList] ++ "//---".toList ::
        ["x".toList, []]) := by
  decide

theorem fix_of_all_other_boxed :
    Header.classify unlicensed.config.dialect "//---".toList = .separator ∧
      Header.classify unlicensed.config.dialect "// Notes on the parser".toList = .other ∧
      ∃ tail, (splitPreamble boxed).2 = "//---\n// Notes on the parser\n//---".toList ++ tail ∧
        (Text.lines tail).tail = ["x".toList, []] ∧
        unlicensed.fix {} boxed = ⟨unlicensed.newHeader {} [] ++ Header.setOff tail, .created,
          [.create]⟩ := by
  have hseparator : Header.classify unlicensed.config.dialect "//---".toList =
      .separator := by decide
  have hother : Header.classify unlicensed.config.dialect "// Notes on the parser".toList =
      .other := by decide
  obtain ⟨tail, -, hbelow, hbody, hfix⟩ :=
    @fix_of_all_other unlicensed boxed _ _ _ _ lines_boxed hseparator hseparator
    (by simpa using hother) {}
  exact ⟨hseparator, hother, tail, hbody, hbelow, hfix⟩

theorem fix_erases_box :
    Header.classify unlicensed.config.dialect "//---".toList = .separator ∧
      Header.classify unlicensed.config.dialect "// Notes on the parser".toList = .other ∧
      "// Notes on the parser".toList ∈ Text.lines boxed ∧
      "// Notes on the parser".toList ∉ Text.lines (unlicensed.fix {} boxed).text := by
  refine ⟨by decide, by decide, by decide, ?_⟩
  have hparse := parse?_of_all_other (d := unlicensed.config.dialect) lines_boxed (by decide)
    (by decide) (by decide)
  obtain ⟨tail, -, hbody, hfix⟩ := fix_of_yearStart_eq_zero (f := unlicensed) hparse rfl
  have htail : tail = "\nx\n".toList := by
    have hsplit : (splitPreamble boxed).2 = "//---\n// Notes on the parser\n//---".toList ++
        "\nx\n".toList := by
      decide
    exact List.append_cancel_left (hbody.symm.trans hsplit)
  have hcredit : Header.creditLine unlicensed.config "2025".toList "Jane Doe".toList
      "jane@example.com".toList =
    "// Copyright (c) 2025                   Jane Doe                 jane@example.com".toList := by
    have hcolumns : Header.creditColumns unlicensed.config "2025".toList "Jane Doe".toList
        "jane@example.com".toList =
        [⟨"// Copyright (c) 2025".toList, 0⟩, ⟨"Jane Doe".toList, 40⟩,
          ⟨"jane@example.com".toList, 65⟩] := by
      decide
    rw [Header.creditLine, hcolumns, Layout.line_triple _ (by decide) (by decide)]
    decide
  have hlicense : Header.licenseLine unlicensed.config = "// SPDX-License-Identifier: ".toList :=
    (Header.licenseLine_bare (by decide) (by decide) rfl).trans (by decide)
  have hnew : unlicensed.newHeader {} [] = Text.unlines (Header.separatorLine unlicensed.config ::
      ([Header.creditLine unlicensed.config "2025".toList "Jane Doe".toList
        "jane@example.com".toList, Header.licenseLine unlicensed.config] ++
        [Header.separatorLine unlicensed.config])) := by
    rfl
  rw [hfix, hnew, hcredit, hlicense, htail]
  decide

end Examples

end Fixer
end Masthead
