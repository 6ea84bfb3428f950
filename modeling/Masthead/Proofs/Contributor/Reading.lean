import Masthead.Proofs.Chain
import Masthead.Proofs.Contributor.Ranking
import Masthead.Proofs.Text.Lines
import Masthead.Proofs.Text.Numeral

/-! Reading what git says of authors, whatever it says. A line names an author where something
stands for the address, be it only blanks. A change list is read to its end unless one of its counts
cannot be read. -/

namespace Masthead
variable {line name email s : Text} {above lines rest : List Text} {p a : Contributor}
  {t t' : Tally}
  {current : Option Contributor} {start : Bool}

/-! Authors -/

/-- Name and address stand on the line, apart by the first separator; something stands for the
address. -/
structure Names (line name email : Text) : Prop where
  parts : line = name ++ authorSeparator :: email
  unseparated : authorSeparator ∉ name
  addressed : email ≠ []

theorem cutAt?_eq_some {sep : Char} {before after : Text}
    (h : Text.cutAt? sep s = some (before, after)) :
    s = before ++ sep :: after ∧ sep ∉ before := by
  induction s generalizing before with
  | nil => cases h
  | cons c s ih =>
    rw [Text.cutAt?] at h
    split_ifs at h with hc
    · cases h
      exact ⟨by rw [hc, List.nil_append], List.not_mem_nil⟩
    · obtain ⟨⟨b, r⟩, hcut, heq⟩ := Option.map_eq_some_iff.mp h
      cases heq
      obtain ⟨rfl, hb⟩ := ih hcut
      exact ⟨rfl, by simpa [hb] using Ne.symm hc⟩

theorem author?_eq_some (h : author? line = some p) :
    ∃ name email, Names line name email ∧ p = ⟨Text.strip name, Text.strip email⟩ := by
  rw [author?] at h
  split at h
  · cases h
  · next name email hcut =>
    obtain ⟨hparts, hname⟩ := cutAt?_eq_some hcut
    split_ifs at h with hemail
    cases h
    exact ⟨name, email, ⟨hparts, hname, by simpa using hemail⟩, rfl⟩

/-! Counts -/

def IsHeading (line : Text) : Prop := line.head? = some commitMark

instance (line : Text) : Decidable (IsHeading line) := inferInstanceAs (Decidable (_ = _))

def knownBelow (known : Bool) (line : Text) : Bool :=
  if IsHeading line then (author? line.tail).isSome else known

/-- Whether an author is known below some lines: the last heading among them names one. Without a
heading it is as it was above them. -/
def IsKnownBelow (known : Bool) (above : List Text) : Prop :=
  match (above.filter (IsHeading ·)).getLast? with
  | some heading => (author? heading.tail).isSome = true
  | none => known = true

def CountOn (line s : Text) : Prop :=
  ¬ IsHeading line ∧ ¬ Text.Blank line ∧
    ∃ added deleted path more, Text.splitOn '\t' line = added :: deleted :: path :: more ∧
    (s = added ∨ s = deleted)

/-- The text stands for a count on one of the lines, below the heading of a commit whose author is
known. -/
def CountAmong (known : Bool) (lines : List Text) (s : Text) : Prop :=
  ∃ above line below, lines = above ++ line :: below ∧ IsKnownBelow known above ∧ CountOn line s

theorem isKnownBelow_cons (known : Bool) (line : Text) (above : List Text) :
    IsKnownBelow known (line :: above) ↔ IsKnownBelow (knownBelow known line) above := by
  rw [IsKnownBelow, IsKnownBelow, knownBelow]
  by_cases h : IsHeading line
  · rw [if_pos h, List.filter_cons_of_pos (by simpa using h), List.getLast?_cons]
    cases (above.filter (IsHeading ·)).getLast? <;> rfl
  · rw [if_neg h, List.filter_cons_of_neg (by simpa using h)]

theorem countAmong_cons (known : Bool) (line : Text) (rest : List Text) (s : Text) :
    CountAmong known (line :: rest) s ↔ known = true ∧ CountOn line s ∨
    CountAmong (knownBelow known line) rest s := by
  constructor
  · rintro ⟨_ | ⟨head, above⟩, l, below, heq, hknown, hcount⟩
    · obtain ⟨rfl, rfl⟩ := List.cons.inj heq
      exact Or.inl ⟨hknown, hcount⟩
    · obtain ⟨rfl, rfl⟩ := List.cons.inj heq
      exact Or.inr ⟨above, l, below, rfl, (isKnownBelow_cons _ _ _).mp hknown, hcount⟩
  · rintro (⟨hknown, hcount⟩ | ⟨above, l, below, rfl, hknown, hcount⟩)
    · exact ⟨[], line, rest, rfl, hknown, hcount⟩
    · exact ⟨line :: above, l, below, rfl, (isKnownBelow_cons _ _ _).mpr hknown, hcount⟩

theorem not_countAmong_nil (known : Bool) (s : Text) : ¬ CountAmong known [] s := by
  rintro ⟨above, line, below, heq, -⟩
  simp at heq

theorem changedLines_eq_ok_iff (hheading : ¬ IsHeading line) (hblank : ¬ Text.Blank line) :
    (∃ n, changedLines line = .ok n) ↔ ∀ s, CountOn line s → Text.Readable s := by
  rw [changedLines]
  split
  · next added deleted path more hsplit =>
    have hcounts : (∀ s, CountOn line s → Text.Readable s) ↔ Text.Readable added ∧
        Text.Readable deleted := by
      refine ⟨fun h => ⟨h added ?_, h deleted ?_⟩, fun h s hs => ?_⟩
      · exact ⟨hheading, hblank, _, _, _, _, hsplit, Or.inl rfl⟩
      · exact ⟨hheading, hblank, _, _, _, _, hsplit, Or.inr rfl⟩
      · obtain ⟨-, -, _, _, _, _, heq, hs⟩ := hs
        rw [hsplit] at heq
        cases heq
        rcases hs with rfl | rfl
        · exact h.1
        · exact h.2
    rw [hcounts, ← Text.numeral_eq_ok_iff, ← Text.numeral_eq_ok_iff]
    cases Text.numeral added <;> cases Text.numeral deleted <;> simp [bind, Except.bind]
  · next hfew =>
    refine iff_of_true ⟨0, rfl⟩ fun s hs => ?_
    obtain ⟨-, -, _, _, _, _, heq, -⟩ := hs
    exact absurd heq (hfew _ _ _ _)

/-! Reading line by line -/

theorem tallyLines_heading (t : Tally) (current : Option Contributor) (author : Text)
    (rest : List Text) :
    tallyLines t current ((commitMark :: author) :: rest) =
      tallyLines ((author? author).elim t fun a => t.add a 0) (author? author) rest := by
  rw [commitMark, tallyLines]
  cases author? author <;> rfl

theorem tallyLines_unknown (h : ¬ IsHeading line) (t : Tally) (rest : List Text) :
    tallyLines t none (line :: rest) = tallyLines t none rest := by
  rw [tallyLines]
  rintro author rfl
  exact h rfl

theorem tallyLines_known (h : ¬ IsHeading line) (t : Tally) (a : Contributor) (rest : List Text) :
    tallyLines t (some a) (line :: rest) =
      if (Text.strip line).isEmpty then tallyLines t (some a) rest
      else changedLines line >>= fun n => tallyLines (t.add a n) (some a) rest := by
  rw [tallyLines]
  rintro author rfl
  exact h rfl

theorem exists_of_isHeading (h : IsHeading line) : ∃ author, line = commitMark :: author := by
  obtain ⟨author, hauthor⟩ := List.head?_eq_some_iff.mp h
  exact ⟨author, hauthor⟩

/-- A change list is read to its end exactly if all of its counts can be read. -/
theorem tallyLines_eq_ok_iff (t : Tally) (current : Option Contributor) (lines : List Text) :
    (∃ t', tallyLines t current lines = .ok t') ↔ ∀ s, CountAmong current.isSome lines s →
    Text.Readable s := by
  induction lines generalizing t current with
  | nil => exact iff_of_true ⟨t, rfl⟩ fun s hs => absurd hs (not_countAmong_nil _ _)
  | cons line rest ih =>
    simp only [countAmong_cons, or_imp, forall_and]
    by_cases hheading : IsHeading line
    · obtain ⟨author, rfl⟩ := exists_of_isHeading hheading
      rw [tallyLines_heading, ih, knownBelow, if_pos hheading, List.tail_cons]
      exact (and_iff_right fun s hs => absurd hheading hs.2.1).symm
    · rw [knownBelow, if_neg hheading]
      cases current with
      | none =>
        rw [tallyLines_unknown hheading, ih]
        exact (and_iff_right (by simp)).symm
      | some a =>
        rw [tallyLines_known hheading]
        by_cases hblank : Text.Blank line
        · rw [if_pos ((Text.strip_isEmpty_iff line).mpr hblank), ih]
          exact (and_iff_right fun s hs => absurd hblank hs.2.2.1).symm
        · rw [if_neg (mt (Text.strip_isEmpty_iff line).mp hblank)]
          simp only [Option.isSome_some, true_and]
          rw [← changedLines_eq_ok_iff hheading hblank]
          -- what is credited for the line makes no difference to what can be read below it
          cases changedLines line with
          | error e => simp [bind, Except.bind]
          | ok n => exact (ih (t.add a n) (some a)).trans (and_iff_right ⟨n, rfl⟩).symm

theorem rankByLines_eq_ok_iff (log : Text) :
    (∃ ranking, rankByLines log = .ok ranking) ↔ ∀ s, CountAmong false (Text.lines log) s →
    Text.Readable s := by
  refine Iff.trans ?_ (tallyLines_eq_ok_iff [] none (Text.lines log))
  rw [rankByLines]
  cases tallyLines [] none (Text.lines log) <;> simp [bind, Except.bind]

/-! Who is found -/

theorem Tally.mem_authors_add {n : Nat} (h : p ∈ (t.add a n).authors) : p ∈ t.authors ∨ p = a := by
  by_cases hany : t.any (·.1.key = a.key) = true
  · rw [add_of_known hany, authors, List.map_map] at h
    refine Or.inl (Eq.subst (motive := (p ∈ ·)) (List.map_congr_left fun e _ => ?_) h)
    rw [Function.comp_apply]
    split_ifs <;> rfl
  · rw [add_of_new hany, authors, List.map_append, List.mem_append] at h
    exact h.imp_right List.mem_singleton.mp

theorem mem_authors_of_tallyLines (h : tallyLines t current lines = .ok t') (hp : p ∈ t'.authors) :
    p ∈ t.authors ∨ current = some p ∨ ∃ author, commitMark :: author ∈ lines ∧
    author? author = some p := by
  induction lines generalizing t current with
  | nil =>
    cases h
    exact Or.inl hp
  | cons line rest ih =>
    by_cases hheading : IsHeading line
    · obtain ⟨author, rfl⟩ := exists_of_isHeading hheading
      rw [tallyLines_heading] at h
      rcases ih h with hmem | hcurrent | ⟨other, hother, hnames⟩
      · cases hauthor : author? author with
        | none =>
          rw [hauthor] at hmem
          exact Or.inl hmem
        | some a =>
          rw [hauthor] at hmem
          refine (Tally.mem_authors_add hmem).imp_right fun heq =>
            Or.inr ⟨author, List.mem_cons_self, ?_⟩
          rw [hauthor, heq]
      · exact Or.inr (Or.inr ⟨author, List.mem_cons_self, hcurrent⟩)
      · exact Or.inr (Or.inr ⟨other, List.mem_cons_of_mem _ hother, hnames⟩)
    · have hbelow {t : Tally} (h : tallyLines t current rest = .ok t') :
          p ∈ t.authors ∨ current = some p ∨ ∃ author, commitMark :: author ∈ line :: rest ∧
          author? author = some p :=
        (ih h).imp_right (Or.imp_right fun ⟨author, hauthor, hnames⟩ =>
          ⟨author, List.mem_cons_of_mem _ hauthor, hnames⟩)
      cases current with
      | none => exact hbelow (by rwa [tallyLines_unknown hheading] at h)
      | some a =>
        rw [tallyLines_known hheading] at h
        split_ifs at h
        · exact hbelow h
        · obtain ⟨n, -, h⟩ := exists_of_bind_eq_ok h
          rcases hbelow (t := t.add a n) h with hmem | hrest
          · exact (Tally.mem_authors_add hmem).imp_right fun heq => Or.inl (by rw [heq])
          · exact Or.inr hrest

theorem mem_of_rankByLines {log : Text} {ranking : List Contributor}
    (h : rankByLines log = .ok ranking) (hp : p ∈ ranking) :
    ∃ author, commitMark :: author ∈ Text.lines log ∧ author? author = some p := by
  obtain ⟨t, hread, h⟩ := exists_of_bind_eq_ok h
  cases h
  have hauthors : p ∈ t.authors := by
    obtain ⟨e, he, rfl⟩ := List.mem_map.mp hp
    exact List.mem_map_of_mem (List.mem_mergeSort.mp he)
  rcases mem_authors_of_tallyLines hread hauthors with hnone | hnone | hnamed
  · cases hnone
  · cases hnone
  · exact hnamed

theorem mem_of_mem_rankByCommits {authors : List Contributor} (h : p ∈ rankByCommits authors) :
    p ∈ authors :=
  (first?_eq_some_mem (((rankByCommits_isRanking authors).1.mem_iff p).mp h)).1

end Masthead
