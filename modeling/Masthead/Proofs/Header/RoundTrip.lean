import Masthead.Proofs.Header.Block
import Masthead.Proofs.Header.Credit
import Masthead.Proofs.Header.LicenseLine

/-! Reading what was written. A generated header is found again as a block, whatever it credits.
Where the contributors fit the columns, years and contributors are read back, and under a usable
configuration all that the header says. -/

namespace Masthead.Header
open Text (Follows IsYear)

def between (c : Config) (people : List Contributor) (first : Int) (last : Option Int) :
    List Text :=
  (columns c people first last).map Layout.line

theorem generate_eq (c : Config) (people : List Contributor) (first : Int) (last : Option Int) :
    generate c people first last =
      Text.unlines (separatorLine c :: (between c people first last ++ [separatorLine c])) := rfl

section Block
variable {c : Config} {people : List Contributor} {first : Int} {last : Option Int}

theorem line_creditLine (hsign : '\n' ∉ c.commentPrefix) {years : Text} (hy : '\n' ∉ years)
    {p : Contributor} (hp : p.OneLine) : '\n' ∉ creditLine c years p.name p.email := by
  intro h
  rcases Layout.mem_line h with h | ⟨column, hcolumn, h⟩
  · exact absurd h (by decide)
  · simp only [creditColumns_eq, List.mem_cons, List.not_mem_nil, or_false] at hcolumn
    rcases hcolumn with rfl | rfl | rfl
    · unfold creditStart at h
      split_ifs at h
      · exact hsign h
      · simp [hsign, hy] at h
    · exact hp.name h
    · exact hp.email h

theorem line_licenseLine (hc : c.Writable) : '\n' ∉ licenseLine c := by
  intro h
  rcases Layout.mem_line h with h | ⟨column, hcolumn, h⟩
  · exact absurd h (by decide)
  · rw [licenseColumns_eq] at hcolumn
    rcases List.mem_cons.mp hcolumn with rfl | hcolumn
    · simp [licenseStart, hc.sign_line, hc.license_line] at h
    · rcases List.mem_append.mp hcolumn with hcolumn | hcolumn
      · split_ifs at hcolumn
        · simp at hcolumn
        · rw [List.mem_singleton.mp hcolumn] at h
          exact hc.url_line h
      · split_ifs at hcolumn
        · simp at hcolumn
        · rw [List.mem_singleton.mp hcolumn] at h
          exact hc.maintainer_line h

theorem mem_between {l : Text} (h : l ∈ between c people first last) :
    l = licenseLine c ∨ ∃ p ∈ people, ∃ years, '\n' ∉ years ∧
    l = creditLine c years p.name p.email := by
  simp only [between, columns, List.map_append, List.mem_append, List.map_cons, List.map_nil,
    List.mem_singleton] at h
  rcases h with h | h
  · right
    cases htake : people.take c.maxContributors with
    | nil => simp [htake, credited] at h
    | cons p ps =>
      have hmem (q : Contributor) (hq : q ∈ p :: ps) : q ∈ people :=
        List.mem_of_mem_take (htake ▸ hq)
      rw [htake, credited, List.map_cons, List.map_map, List.mem_cons] at h
      rcases h with h | h
      · exact ⟨p, hmem p List.mem_cons_self, _, (word_yearText first last).line, h⟩
      · obtain ⟨q, hq, rfl⟩ := List.mem_map.mp h
        exact ⟨q, hmem q (List.mem_cons_of_mem _ hq), [], by simp, rfl⟩
  · exact Or.inl h

theorem between_plain (hc : c.Writable) (hp : ∀ p ∈ people, p.OneLine) {d : Dialect}
    (hd : d.commentPrefix = c.commentPrefix) :
    ∀ l ∈ between c people first last, '\n' ∉ l ∧ classify d l ≠ .separator := by
  intro l hl
  rcases mem_between hl with rfl | ⟨p, hmem, years, hy, rfl⟩
  · obtain ⟨r, -, hr⟩ := exists_licenseLine_eq hc
    refine ⟨line_licenseLine hc, ?_⟩
    rw [hr, ← hd]
    exact classify_ne_separator _
  · obtain ⟨r, hr⟩ := @exists_creditLine_eq c years hc p.name p.email
    refine ⟨line_creditLine hc.sign_line hy (hp p hmem), ?_⟩
    rw [hr, ← hd]
    exact classify_ne_separator r

theorem parse?_generate_foldl (hc : c.Writable) (hp : ∀ p ∈ people, p.OneLine) {d : Dialect}
    (hd : d.commentPrefix = c.commentPrefix) {below : Text} (hb : Follows below) :
    parse? d (generate c people first last ++ below) =
      some (((between c people first last).map (classify d)).foldl absorb
        { raw := generate c people first last,
          endLine := (between c people first last).length + 2 }) := by
  have hplain : ∀ l ∈ between c people first last, '\n' ∉ l ∧ classify d l ≠ .separator :=
    between_plain hc hp hd
  have hsep := classify_separatorLine hc.ruled hd
  have hline := line_separatorLine hc.ruled hc.sign_line
  rw [generate_eq]
  refine parse?_block hsep hsep (fun l hl => (hplain l hl).2) ?_ hb
  intro l hl
  simp only [List.mem_cons, List.mem_append, List.not_mem_nil, or_false] at hl
  rcases hl with rfl | hl | rfl
  · exact hline
  · exact (hplain l hl).1
  · exact hline

theorem parse?_generate_raw (hc : c.Writable) (hp : ∀ p ∈ people, p.OneLine) {d : Dialect}
    (hd : d.commentPrefix = c.commentPrefix) {below : Text} (hb : Follows below) :
    ∃ h, parse? d (generate c people first last ++ below) = some h ∧
      h.raw = generate c people first last :=
  ⟨_, parse?_generate_foldl hc hp hd hb, foldl_absorb_raw _ _⟩

end Block

section Reading
variable {c : Config} {people : List Contributor} {first : Int} {last : Option Int}

theorem foldl_continuation (h : Header) (ps : List Contributor) :
    (ps.map Line.continuation).foldl absorb h =
    { h with contributors := h.contributors ++ ps } := by
  induction ps generalizing h with
  | nil => simp
  | cons p ps ih => simp [ih, absorb]

/-- A header says what its lines for the first contributor, for the others and for the license
say. -/
theorem map_classify_between (d : Dialect) (first : Int) (last : Option Int) {p : Contributor}
    {ps : List Contributor} (htake : people.take c.maxContributors = p :: ps) :
    (between c people first last).map (classify d) =
      classify d (creditLine c (yearText first last) p.name p.email) ::
        (ps.map (fun q => classify d (creditLine c [] q.name q.email)) ++
          [classify d (licenseLine c)]) := by
  simp only [between, columns, htake, credited, List.map_append, List.map_cons, List.map_map,
    List.map_nil, List.cons_append]
  rfl

/-- Every line says whom it was written for, and the first one the years. -/
def ReadBack (c : Config) (first : Int) (last : Option Int) : List Contributor → Prop
  | [] => True
  | p :: ps =>
    classify c.dialect (creditLine c (yearText first last) p.name p.email) =
        .copyright first.toNat (last.getD first).toNat p ∧
      ∀ q ∈ ps, classify c.dialect (creditLine c [] q.name q.email) = .continuation q

theorem readBack_of_fits (hc : c.Readable) (hp : ∀ p ∈ people, p.Fits c) (hf : IsYear first)
    (hl : ∀ y ∈ last, IsYear y) : ReadBack c first last people := by
  cases people with
  | nil => trivial
  | cons p ps =>
    refine ⟨classify_firstLine hc (hp p List.mem_cons_self) hf hl, fun q hq => ?_⟩
    exact classify_furtherLine hc (hp q (List.mem_cons_of_mem _ hq))

theorem take_ne_nil (hc : c.Readable) (hne : people ≠ []) : people.take c.maxContributors ≠ [] := by
  have hcredits := hc.credits
  simp only [ne_eq, List.take_eq_nil_iff, hne, or_false]
  omega

theorem parse?_generate_readBack (hc : c.Readable) (hne : people ≠ [])
    (hp : ∀ p ∈ people, p.OneLine) (hread : ReadBack c first last (people.take c.maxContributors))
    (hf : IsYear first) (hl : ∀ y ∈ last, IsYear y) {below : Text} (hb : Follows below) :
    parse? c.dialect (generate c people first last ++ below) =
      some (absorb
        { raw := generate c people first last
          endLine := (people.take c.maxContributors).length + 3
          yearStart := first
          yearEnd := last.getD first
          contributors := people.take c.maxContributors }
          (classify c.dialect (licenseLine c))) := by
  obtain ⟨p, ps, htake⟩ := List.exists_cons_of_ne_nil (take_ne_nil hc hne)
  rw [htake] at hread ⊢
  obtain ⟨hfirstLine, hfurther⟩ := hread
  have hlines := map_classify_between c.dialect first last htake
  rw [hfirstLine, List.map_congr_left hfurther] at hlines
  have hlength : (between c people first last).length = ps.length + 2 := by
    simpa using congrArg List.length hlines
  have hfirst : ((first.toNat : Nat) : Int) = first := Int.toNat_of_nonneg (by have := hf.1; omega)
  have hlast : (((last.getD first).toNat : Nat) : Int) = last.getD first := by
    have hy : IsYear (last.getD first) := by
      cases last with
      | none => exact hf
      | some y => exact hl y rfl
    exact Int.toNat_of_nonneg (by have := hy.1; omega)
  rw [parse?_generate_foldl hc.toWritable hp rfl hb, hlines, hlength, List.foldl_cons,
    List.foldl_append, foldl_continuation]
  simp only [absorb, if_true, hfirst, hlast, List.nil_append, List.length_cons, List.foldl_cons,
    List.foldl_nil, List.singleton_append]

theorem parse?_generate_absorb (hc : c.Readable) (hne : people ≠ []) (hp : ∀ p ∈ people, p.Fits c)
    (hf : IsYear first) (hl : ∀ y ∈ last, IsYear y) {below : Text} (hb : Follows below) :
    parse? c.dialect (generate c people first last ++ below) =
      some (absorb
        { raw := generate c people first last
          endLine := (people.take c.maxContributors).length + 3
          yearStart := first
          yearEnd := last.getD first
          contributors := people.take c.maxContributors }
          (classify c.dialect (licenseLine c))) := by
  have hread : ReadBack c first last (people.take c.maxContributors) :=
    readBack_of_fits hc (fun p hmem => hp p (List.mem_of_mem_take hmem)) hf hl
  exact parse?_generate_readBack hc hne (fun p hmem => (hp p hmem).oneLine) hread hf hl hb

theorem parse?_generate (hc : c.Readable) (hne : people ≠ []) (hp : ∀ p ∈ people, p.OneLine)
    (hread : ReadBack c first last (people.take c.maxContributors)) (hf : IsYear first)
    (hl : ∀ y ∈ last, IsYear y) {below : Text} (hb : Follows below) :
    ∃ h, parse? c.dialect (generate c people first last ++ below) = some h ∧
      h.raw = generate c people first last ∧ h.yearStart = first ∧ h.yearEnd = last.getD first ∧
      h.contributors = people.take c.maxContributors := by
  refine ⟨_, parse?_generate_readBack hc hne hp hread hf hl hb, ?_⟩
  rcases classify_licenseLine hc.toWritable with hx | ⟨_, _, _, hx⟩ <;> rw [hx] <;>
    exact ⟨rfl, rfl, rfl, rfl⟩

end Reading

/-- A header generated under a usable configuration says what it was generated from, also at the top
of a text that goes on below it. -/
theorem generate_readBack {c : Config} (hc : c.Usable) (hlicense : c.Licensed)
    {people : List Contributor} (hne : people ≠ []) (hp : ∀ p ∈ people, p.Fits c)
    {first : Int} {last : Option Int} (hf : IsYear first) (hl : ∀ y ∈ last, IsYear y)
    {below : Text} (hb : Follows below) :
    parse? c.dialect (generate c people first last ++ below) =
      some
        { raw := generate c people first last
          endLine := (people.take c.maxContributors).length + 3
          yearStart := first
          yearEnd := last.getD first
          contributors := people.take c.maxContributors
          spdxLicense := some c.spdxLicense
          licenseUrl := some c.licenseUrl
          maintainerEmail := if c.maintainerEmail = [] then none else some c.maintainerEmail } := by
  rw [parse?_generate_absorb (hc.readable hlicense) hne hp hf hl hb,
    classify_licenseLine_eq hc hlicense]
  rfl

theorem generate_readBack_shell :
    parse? Config.shell.dialect
        (generate Config.shell [.jane, .john, .jane] 2019 (some 2024) ++ "\n\nexit 0\n".toList) =
      some
        { raw := generate Config.shell [.jane, .john, .jane] 2019 (some 2024)
          endLine := 5
          yearStart := 2019
          yearEnd := 2024
          contributors := [.jane, .john]
          spdxLicense := some "MIT".toList
          licenseUrl := some "https://opensource.org/licenses/MIT".toList
          maintainerEmail := some "team@example.com".toList } := by
  have hurl : Config.shell.licenseUrl = "https://opensource.org/licenses/MIT".toList := by decide
  have hfits : ∀ p ∈ [Contributor.jane, .john, .jane], p.Fits Config.shell := by
    simp [Contributor.jane_fits, Contributor.john_fits]
  have hb : Follows "\n\nexit 0\n".toList := by simp [Follows]
  rw [generate_readBack Config.shell_usable Config.shell_licensed (by simp) hfits (by decide)
    (by decide)
    hb, hurl]
  rfl

end Masthead.Header
