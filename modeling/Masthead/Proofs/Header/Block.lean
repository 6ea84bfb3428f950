import Masthead.Proofs.Header.Recognition
import Masthead.Proofs.Text.Lines

/-! The block of lines that is a header. Reading stops at the second separator and takes in what the
lines before it say; the text of the header and what stands below it are the whole text. -/

namespace Masthead.Header
open Text (Follows)

section Absorb
variable (h : Header) (x : Line) (xs : List Line)

theorem absorb_raw : (h.absorb x).raw = h.raw := by
  cases x with
  | copyright first last who => simp only [absorb]; split_ifs <;> rfl
  | _ => rfl

theorem absorb_endLine : (h.absorb x).endLine = h.endLine := by
  cases x with
  | copyright first last who => simp only [absorb]; split_ifs <;> rfl
  | _ => rfl

theorem absorb_contributors : (h.absorb x).contributors = h.contributors ++ x.people := by
  cases x with
  | copyright first last who => simp only [absorb, Line.people]; split_ifs <;> rfl
  | continuation who => rfl
  | _ => exact (List.append_nil _).symm

theorem foldl_absorb_raw : (xs.foldl absorb h).raw = h.raw := by
  induction xs generalizing h with
  | nil => rfl
  | cons x xs ih => rw [List.foldl_cons, ih, absorb_raw]

theorem foldl_absorb_endLine : (xs.foldl absorb h).endLine = h.endLine := by
  induction xs generalizing h with
  | nil => rfl
  | cons x xs ih => rw [List.foldl_cons, ih, absorb_endLine]

theorem foldl_absorb_contributors :
    (xs.foldl absorb h).contributors = h.contributors ++ xs.flatMap Line.people := by
  induction xs generalizing h with
  | nil => simp
  | cons x xs ih =>
    rw [List.foldl_cons, ih, absorb_contributors, List.flatMap_cons, List.append_assoc]

theorem absorb_spdxLicense : (h.absorb x).spdxLicense = x.license?.or h.spdxLicense := by
  cases x with
  | copyright first last who => simp only [absorb, Line.license?]; split_ifs <;> rfl
  | _ => rfl

theorem foldl_absorb_spdxLicense :
    (xs.foldl absorb h).spdxLicense = (xs.filterMap Line.license?).getLast?.or h.spdxLicense := by
  induction xs generalizing h with
  | nil => rfl
  | cons x xs ih =>
    rw [List.foldl_cons, ih, absorb_spdxLicense, List.filterMap_cons]
    cases x.license? with
    | none => rfl
    | some license =>
      rw [List.getLast?_cons]
      cases (xs.filterMap Line.license?).getLast? <;> rfl

theorem foldl_absorb_other (hx : ∀ x ∈ xs, x = .other) : xs.foldl absorb h = h := by
  induction xs with
  | nil => rfl
  | cons x xs ih =>
    obtain ⟨rfl, hxs⟩ := List.forall_mem_cons.mp hx
    exact ih hxs

theorem foldl_absorb_contributors_ne_nil (hy : h.yearStart ≠ 0 → h.contributors ≠ []) :
    (xs.foldl absorb h).yearStart ≠ 0 → (xs.foldl absorb h).contributors ≠ [] := by
  induction xs generalizing h with
  | nil => exact hy
  | cons x xs ih =>
    refine ih (h.absorb x) fun hx => ?_
    cases x with
    | copyright first last who => simp [absorb_contributors, Line.people]
    | continuation who => simp [absorb]
    | _ => exact hy hx

theorem foldl_absorb_years (hy : h.yearStart ≠ 0) :
    (xs.foldl absorb h).yearStart = h.yearStart ∧ (xs.foldl absorb h).yearEnd = h.yearEnd := by
  induction xs generalizing h with
  | nil => exact ⟨rfl, rfl⟩
  | cons x xs ih =>
    have hx : (h.absorb x).yearStart = h.yearStart ∧ (h.absorb x).yearEnd = h.yearEnd := by
      cases x <;> simp [absorb, hy]
    rw [List.foldl_cons, ← hx.1, ← hx.2]
    apply ih
    rwa [hx.1]

/-- The first line with a year other than zero gives the years. -/
theorem foldl_absorb_copyright {first last : Nat} (who : Contributor) (hy : h.yearStart = 0)
    (hfirst : first ≠ 0) :
    ((Line.copyright first last who :: xs).foldl absorb h).yearStart = first ∧
      ((Line.copyright first last who :: xs).foldl absorb h).yearEnd = last := by
  have hstart : (h.absorb (.copyright first last who)).yearStart = first := by simp [absorb, hy]
  have hend : (h.absorb (.copyright first last who)).yearEnd = last := by simp [absorb, hy]
  have hstay := foldl_absorb_years (h.absorb (.copyright first last who)) xs
    (by rw [hstart]; exact Int.natCast_ne_zero.mpr hfirst)
  rwa [hstart, hend] at hstay

theorem foldl_absorb_years_nonneg (hy : 0 ≤ h.yearStart ∧ 0 ≤ h.yearEnd) :
    0 ≤ (xs.foldl absorb h).yearStart ∧ 0 ≤ (xs.foldl absorb h).yearEnd := by
  induction xs generalizing h with
  | nil => exact hy
  | cons x xs ih =>
    apply ih
    cases x with
    | copyright first last who =>
      simp only [absorb]
      split_ifs
      · exact ⟨Int.natCast_nonneg first, Int.natCast_nonneg last⟩
      · exact hy
    | _ => exact hy

end Absorb

section Parse
variable {d : Dialect}

theorem interior?_plain_append {plain below : List Text}
    (hi : ∀ l ∈ plain, classify d l ≠ .separator) :
    interior? d (plain ++ below) = (interior? d below).map (plain.map (classify d) ++ ·) := by
  induction plain with
  | nil => simp
  | cons l plain ih =>
    have hl := hi l List.mem_cons_self
    have hrest := ih fun m hm => hi m (List.mem_cons_of_mem _ hm)
    simp only [List.cons_append, interior?, hrest, List.map_cons, Option.map_map]
    cases hx : classify d l with
    | separator => exact absurd hx hl
    | _ => rfl

theorem interior?_append {inner below : List Text} {closing : Text}
    (hi : ∀ l ∈ inner, classify d l ≠ .separator) (hc : classify d closing = .separator) :
    interior? d (inner ++ closing :: below) = some (inner.map (classify d)) := by
  rw [interior?_plain_append hi, interior?, hc, Option.map_some, List.append_nil]

theorem parse?_of_lines {content opening closing : Text} {inner below : List Text}
    (hlines : Text.lines content = opening :: (inner ++ closing :: below))
    (ho : classify d opening = .separator) (hc : classify d closing = .separator)
    (hi : ∀ l ∈ inner, classify d l ≠ .separator) :
    parse? d content =
      some ((inner.map (classify d)).foldl absorb
        { raw := Text.unlines (opening :: (inner ++ [closing])),
          endLine := inner.length + 2 }) := by
  have htake : (opening :: (inner ++ closing :: below)).take (inner.length + 2) = opening ::
      (inner ++ [closing]) := by
    have hsplit : opening :: (inner ++ closing :: below) = (opening :: (inner ++ [closing])) ++
        below := by simp
    rw [hsplit]
    exact List.take_left' (by simp)
  rw [parse?, hlines]
  simp only [ho, if_true, interior?_append hi hc, Option.map_some, List.length_map, htake]

theorem notMem_of_lines {content opening closing : Text} {inner below : List Text}
    (hlines : Text.lines content = opening :: (inner ++ closing :: below)) :
    ∀ l ∈ opening :: (inner ++ [closing]), '\n' ∉ l := by
  intro l hl
  apply Text.not_mem_of_mem_lines (s := content)
  rw [hlines]
  simp only [List.mem_cons, List.mem_append, List.not_mem_nil, or_false] at hl ⊢
  tauto

theorem parse?_block {opening closing below : Text} {inner : List Text}
    (ho : classify d opening = .separator) (hc : classify d closing = .separator)
    (hi : ∀ l ∈ inner, classify d l ≠ .separator)
    (hline : ∀ l ∈ opening :: (inner ++ [closing]), '\n' ∉ l) (hb : Follows below) :
    parse? d (Text.unlines (opening :: (inner ++ [closing])) ++ below) =
      some ((inner.map (classify d)).foldl absorb
        { raw := Text.unlines (opening :: (inner ++ [closing])),
          endLine := inner.length + 2 }) := by
  have hlines := Text.lines_unlines_append (by simp) hline hb
  rw [List.cons_append, List.append_assoc, List.singleton_append] at hlines
  exact parse?_of_lines hlines ho hc hi

theorem parse?_some {content : Text} {h : Header} (hp : parse? d content = some h) :
    ∃ inner, interior? d (Text.lines content).tail = some inner ∧
      h = inner.foldl absorb
        { raw := Text.unlines ((Text.lines content).take (inner.length + 2))
          endLine := inner.length + 2 } := by
  rw [parse?] at hp
  cases hl : Text.lines content with
  | nil => exact absurd hl (Text.lines_ne_nil content)
  | cons first lines =>
    rw [hl] at hp
    dsimp only at hp
    split_ifs at hp
    obtain ⟨inner, hinner, rfl⟩ := Option.map_eq_some_iff.mp hp
    exact ⟨inner, hinner, rfl⟩

/-- A header and what stands below it make up the text. -/
theorem parse?_split {content : Text} {h : Header} (hp : parse? d content = some h) :
    ∃ below, Follows below ∧ content = h.raw ++ below ∧
      (Text.lines content).drop h.endLine = (Text.lines below).tail := by
  obtain ⟨inner, -, rfl⟩ := parse?_some hp
  rw [foldl_absorb_raw, foldl_absorb_endLine]
  exact Text.exists_eq_unlines_take content (by omega)

theorem parse?_contributors_ne_nil {content : Text} {h : Header} (hp : parse? d content = some h)
    (hy : h.yearStart ≠ 0) : h.contributors ≠ [] := by
  obtain ⟨inner, -, rfl⟩ := parse?_some hp
  exact foldl_absorb_contributors_ne_nil _ _ (fun h0 => absurd rfl h0) hy

theorem parse?_years_nonneg {content : Text} {h : Header} (hp : parse? d content = some h) :
    0 ≤ h.yearStart ∧ 0 ≤ h.yearEnd := by
  obtain ⟨inner, -, rfl⟩ := parse?_some hp
  exact foldl_absorb_years_nonneg _ _ ⟨Int.le_refl 0, Int.le_refl 0⟩

theorem interior?_eq_some {ls : List Text} {xs : List Line} (h : interior? d ls = some xs) :
    ∃ inner closing below, ls = inner ++ closing :: below ∧ classify d closing = .separator ∧
      (∀ l ∈ inner, classify d l ≠ .separator) ∧ xs = inner.map (classify d) := by
  induction ls generalizing xs with
  | nil => simp [interior?] at h
  | cons l ls ih =>
    rw [interior?] at h
    split at h
    · next hl =>
      cases h
      exact ⟨[], l, ls, rfl, hl, by simp, rfl⟩
    · next hl =>
      obtain ⟨xs, hxs, rfl⟩ := Option.map_eq_some_iff.mp h
      obtain ⟨inner, closing, below, rfl, hclosing, hinner, rfl⟩ := ih hxs
      exact ⟨l :: inner, closing, below, rfl, hclosing, List.forall_mem_cons.mpr ⟨hl, hinner⟩, rfl⟩

theorem parse?_eq_some {content : Text} {h : Header} (hp : parse? d content = some h) :
    ∃ opening inner closing below, Text.lines content = opening :: (inner ++ closing :: below) ∧
      classify d opening = .separator ∧ classify d closing = .separator ∧
      (∀ l ∈ inner, classify d l ≠ .separator) ∧
      h = (inner.map (classify d)).foldl absorb
        { raw := Text.unlines (opening :: (inner ++ [closing])), endLine := inner.length + 2 } := by
  have hopened := hp
  rw [parse?] at hopened
  cases hl : Text.lines content with
  | nil => exact absurd hl (Text.lines_ne_nil content)
  | cons opening lines =>
    rw [hl] at hopened
    dsimp only at hopened
    split_ifs at hopened with ho
    obtain ⟨xs, hxs, -⟩ := Option.map_eq_some_iff.mp hopened
    obtain ⟨inner, closing, below, rfl, hc, hi, -⟩ := interior?_eq_some hxs
    refine ⟨opening, inner, closing, below, rfl, ho, hc, hi, ?_⟩
    rw [parse?_of_lines hl ho hc hi] at hp
    exact (Option.some.inj hp).symm

theorem interior?_isSome_iff {ls : List Text} :
    (interior? d ls).isSome = true ↔ ∃ l ∈ ls, classify d l = .separator := by
  induction ls with
  | nil => simp [interior?]
  | cons l ls ih =>
    rw [interior?]
    split
    · next hl => exact iff_of_true rfl ⟨l, List.mem_cons_self, hl⟩
    · next hl => rw [Option.isSome_map, ih, List.exists_mem_cons_iff, or_iff_right hl]

theorem parse?_isSome_iff {content first : Text} {ls : List Text}
    (hlines : Text.lines content = first :: ls) :
    (parse? d content).isSome = true ↔
      classify d first = .separator ∧ ∃ l ∈ ls, classify d l = .separator := by
  rw [parse?, hlines]
  dsimp only
  split_ifs with hfirst
  · rw [Option.isSome_map, interior?_isSome_iff, and_iff_right hfirst]
  · simp [hfirst]

theorem parse?_append {s below : Text} {h : Header} (hp : parse? d s = some h)
    (hb : Follows below) :
    parse? d (s ++ below) = some h := by
  obtain ⟨opening, inner, closing, rest, hlines, ho, hc, hi, rfl⟩ := parse?_eq_some hp
  have hall : Text.lines (s ++ below) = opening ::
      (inner ++ closing :: (rest ++ (Text.lines below).tail)) := by
    rw [Text.lines_append_follows s hb, hlines]
    simp
  exact parse?_of_lines hall ho hc hi

theorem isSeparator_some {line : Text} (h : isSeparator d line = true) :
    ∃ x rest, line = d.commentPrefix ++ x :: rest := by
  rw [isSeparator] at h
  split at h
  · cases h
  · next rest hdrop =>
    cases rest with
    | nil => cases h
    | cons x rest => exact ⟨x, rest, Text.drop?_eq_some hdrop⟩

theorem parse?_sign {content : Text} {h : Header} (hp : parse? d content = some h) :
    '\n' ∉ d.commentPrefix ∧ ∃ x rest, content = d.commentPrefix ++ x :: rest := by
  have hlines := Text.lines_eq_cons content
  have hfirst := ((parse?_isSome_iff hlines).mp (Option.isSome_of_eq_some hp)).1
  obtain ⟨x, rest, hchop⟩ := isSeparator_some ((classify_eq_separator _).mp hfirst)
  have hprefix : chop (content.takeWhile (· ≠ '\n')) <+: content :=
    (chop_isPrefix _).trans (List.takeWhile_prefix _)
  refine ⟨fun hmem => ?_, ?_⟩
  · have hline : '\n' ∈ content.takeWhile (· ≠ '\n') :=
      (chop_isPrefix _).subset (hchop ▸ List.mem_append_left _ hmem)
    simpa using List.mem_takeWhile_imp hline
  · obtain ⟨more, hmore⟩ := hprefix
    exact ⟨x, rest ++ more, by rw [← hmore, hchop, List.append_assoc, List.cons_append]⟩

theorem classify_nil : classify d [] ≠ .separator := by
  rw [ne_eq, classify_eq_separator, chop, List.reverse_nil, List.dropWhile_nil, List.reverse_nil,
    isSeparator]
  cases d.commentPrefix <;> simp [Text.drop?]

theorem parse?_getLast? {content : Text} {h : Header} (hp : parse? d content = some h) :
    ∃ c ∈ h.raw.getLast?, c ≠ '\n' := by
  obtain ⟨opening, inner, closing, below, hlines, -, hc, -, rfl⟩ := parse?_eq_some hp
  rw [foldl_absorb_raw]
  have hmem : closing ∈ Text.lines content := by simp [hlines]
  have hne : closing ≠ [] := fun h => classify_nil (h ▸ hc)
  have hclosed : Text.unlines [closing] = closing := by
    simp [Text.unlines, Text.join, List.intercalate]
  rw [← List.cons_append, Text.unlines_append (by simp) (by simp), hclosed,
    List.getLast?_append_of_ne_nil _ (by simp), List.getLast?_cons_of_ne_nil hne]
  refine ⟨closing.getLast hne, List.getLast?_eq_getLast_of_ne_nil hne, fun h => ?_⟩
  exact Text.not_mem_of_mem_lines hmem (h ▸ List.getLast_mem hne)

theorem person?_oneLine {s : Text} {p : Contributor} (h : person? s = some p) : p.OneLine := by
  obtain ⟨t, b, u, -, hname, hline, -⟩ := person?_some h
  refine ⟨fun hn => hline (Text.mem_of_mem_strip ?_), (person?_email h).word.line⟩
  rwa [← hname]

theorem parse?_person {content : Text} {h : Header} (hp : parse? d content = some h) :
    ∀ p ∈ h.contributors, ∃ s, person? s = some p := by
  obtain ⟨opening, inner, closing, below, -, -, -, -, rfl⟩ := parse?_eq_some hp
  intro p hmem
  rw [foldl_absorb_contributors, List.nil_append] at hmem
  obtain ⟨x, hx, hpx⟩ := List.mem_flatMap.mp hmem
  obtain ⟨l, -, rfl⟩ := List.mem_map.mp hx
  exact classify_people hpx

theorem parse?_oneLine {content : Text} {h : Header} (hp : parse? d content = some h) :
    ∀ p ∈ h.contributors, p.OneLine := by
  intro p hmem
  obtain ⟨s, hs⟩ := parse?_person hp p hmem
  exact person?_oneLine hs

end Parse
end Masthead.Header
