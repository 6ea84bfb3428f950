import Masthead.Proofs.Contributor.Ranking
import Masthead.Proofs.Text.Decimal
import Masthead.Proofs.Text.Lines

/-! Change lists. A list of commits is written down commit by commit, and reading it credits the
author of every commit with what the commit changed, as far as the counts are short enough to be
read. -/

namespace Masthead.ChangeList

/-- What is counted of a file: the digits of a number, or a dash where there are no lines. -/
def IsCount (s : Text) : Prop := s = ['-'] ∨ (Text.decimal? s).isSome = true

instance (s : Text) : Decidable (IsCount s) := inferInstanceAs (Decidable (_ ∨ _))

structure Entry where
  added : Text
  deleted : Text
  path : Text

namespace Entry

def line (e : Entry) : Text := e.added ++ '\t' :: (e.deleted ++ '\t' :: e.path)

def counts (e : Entry) : List Text := [e.added, e.deleted]

def changed (e : Entry) : Nat := (Text.decimal? e.added).getD 0 + (Text.decimal? e.deleted).getD 0

structure Plain (e : Entry) : Prop where
  added : IsCount e.added
  deleted : IsCount e.deleted
  path : '\n' ∉ e.path

instance (e : Entry) : Decidable e.Plain :=
  decidable_of_iff (IsCount e.added ∧ IsCount e.deleted ∧ '\n' ∉ e.path)
    ⟨fun h => ⟨h.1, h.2.1, h.2.2⟩, fun h => ⟨h.added, h.deleted, h.path⟩⟩

end Entry

structure Commit where
  name : Text
  email : Text
  changes : List Entry

namespace Commit

def author (c : Commit) : Contributor := ⟨Text.strip c.name, Text.strip c.email⟩

def lines (c : Commit) : List Text :=
  (commitMark :: (c.name ++ authorSeparator :: c.email)) :: [] :: c.changes.map Entry.line

def counts (c : Commit) : List Text := c.changes.flatMap Entry.counts

def changed (c : Commit) : Nat := (c.changes.map Entry.changed).sum

structure Plain (c : Commit) : Prop where
  name : '\n' ∉ c.name
  unseparated : authorSeparator ∉ c.name
  email : '\n' ∉ c.email
  addressed : Text.strip c.email ≠ []
  changes : ∀ e ∈ c.changes, e.Plain

instance (c : Commit) : Decidable c.Plain :=
  decidable_of_iff ('\n' ∉ c.name ∧ authorSeparator ∉ c.name ∧ '\n' ∉ c.email ∧
    Text.strip c.email ≠ [] ∧
      ∀ e ∈ c.changes, e.Plain)
    ⟨fun h => ⟨h.1, h.2.1, h.2.2.1, h.2.2.2.1, h.2.2.2.2⟩,
      fun h => ⟨h.name, h.unseparated, h.email, h.addressed, h.changes⟩⟩

end Commit

def text (commits : List Commit) : Text := Text.unlines (commits.flatMap Commit.lines)

def counts (commits : List Commit) : List Text := commits.flatMap Commit.counts

/-! Counts -/

/-- Whether the counts are short enough to be read, or else how long the first one is that is
not. -/
def checked (counts : List Text) : Except Text.NumeralFault Unit :=
  match counts.find? (Text.digitLimit < ·.length) with
  | none => .ok ()
  | some s => .error (.tooLong s.length)

theorem checked_append (xs ys : List Text) : checked (xs ++ ys) = (do checked xs; checked ys) := by
  rw [checked, checked, List.find?_append]
  cases xs.find? (Text.digitLimit < ·.length) <;> rfl

section IsCount
variable {s : Text}

theorem isCount_ofNat (n : Nat) : IsCount (Text.ofNat n) :=
  Or.inr (by rw [Text.decimal?_ofNat, Option.isSome_some])

theorem IsCount.word (h : IsCount s) : Text.Word s := by
  rcases h with rfl | h
  · decide
  · exact Text.word_of_decimal? h

theorem IsCount.numeral_eq (h : IsCount s) :
    Text.numeral s = (do checked [s]; .ok (Text.decimal? s)) := by
  rcases h with rfl | h
  · rfl
  · have hword := Text.word_of_decimal? h
    have hdecimal := Text.isDecimal_of_decimal? h
    have hdigits : Text.isDigits s = true := by
      rw [Text.isDigits, Bool.and_eq_true, List.all_eq_true]
      refine ⟨by simpa using hword.ne_nil, fun c hc => ?_⟩
      rw [Text.isDigit, hdecimal c hc, Bool.true_or]
    have hfront : s.takeWhile Text.isDecimal = s := List.takeWhile_eq_self_iff.mpr hdecimal
    obtain ⟨n, hn⟩ := Option.isSome_iff_exists.mp h
    simp only [Text.numeral, if_pos hdigits, hfront, hn, checked]
    by_cases hlong : Text.digitLimit < s.length
    · rw [if_pos hlong, List.find?_cons_of_pos (by simpa using hlong)]
      rfl
    · rw [if_neg hlong, List.find?_cons_of_neg (by simpa using hlong)]
      rfl

end IsCount

/-! Reading a line -/

section Entry
variable {e : Entry}

theorem Entry.Plain.changedLines_eq (h : e.Plain) :
    changedLines e.line = (do checked e.counts; .ok e.changed) := by
  have htab {s : Text} (hs : IsCount s) : '\t' ∉ s := fun hmem =>
    absurd (hs.word.solid _ hmem) (by decide)
  have hsplit : Text.splitOn '\t' e.line = e.added :: e.deleted :: Text.splitOn '\t' e.path := by
    rw [Entry.line, Text.splitOn_append, Text.splitOn_append,
      Text.splitOn_of_not_mem (htab h.added), Text.splitOn_of_not_mem (htab h.deleted)]
    rfl
  obtain ⟨piece, pieces, hpath⟩ := List.exists_cons_of_ne_nil (Text.splitOn_ne_nil '\t' e.path)
  have hcounts : e.counts = [e.added] ++ [e.deleted] := rfl
  rw [changedLines, hsplit, hpath, hcounts, checked_append]
  simp only [h.added.numeral_eq, h.deleted.numeral_eq]
  cases checked [e.added] <;> cases checked [e.deleted] <;> rfl

theorem Entry.Plain.tallyLines_cons (h : e.Plain) (t : Tally) (a : Contributor) (rest : List Text) :
    tallyLines t (some a) (e.line :: rest) =
      (do checked e.counts; tallyLines (t.add a e.changed) (some a) rest) := by
  have hmark : ∀ author, e.line = '\x1e' :: author → False := by
    intro author hline
    have hsolid := h.added.word.head ('\t' :: (e.deleted ++ '\t' :: e.path))
    rw [← Entry.line, hline] at hsolid
    exact absurd (hsolid '\x1e' rfl) (by decide)
  have hblank : ¬ (Text.strip e.line).isEmpty = true := by
    rw [Text.strip_isEmpty_iff]
    intro hb
    obtain ⟨c, hc⟩ := List.exists_mem_of_ne_nil _ h.added.word.ne_nil
    exact absurd ((h.added.word.solid c hc).symm.trans (hb c (List.mem_append_left _ hc)))
      (by decide)
  rw [tallyLines, if_neg hblank, h.changedLines_eq]
  · cases checked e.counts <;> rfl
  · exact hmark

end Entry

theorem tallyLines_nil (t : Tally) (current : Option Contributor) (rest : List Text) :
    tallyLines t current ([] :: rest) = tallyLines t current rest := by
  cases current <;> rfl

theorem tallyLines_blank (t : Tally) (current : Option Contributor) (n : Nat) :
    tallyLines t current (List.replicate n []) = .ok t := by
  induction n with
  | zero => rfl
  | succ n ih => rw [List.replicate_succ, tallyLines_nil, ih]

theorem tallyLines_author {c : Commit} (h : c.Plain) (t : Tally) (current : Option Contributor)
    (rest : List Text) :
    tallyLines t current ((commitMark :: (c.name ++ authorSeparator :: c.email)) :: rest) =
      tallyLines (t.add c.author 0) (some c.author) rest := by
  have hemail : ¬ c.email.isEmpty = true := by
    intro hnil
    rw [List.isEmpty_iff] at hnil
    exact h.addressed (by rw [hnil]; rfl)
  have hauthor : author? (c.name ++ authorSeparator :: c.email) = some c.author := by
    rw [author?, Text.cutAt?_append h.unseparated]
    exact if_neg hemail
  rw [commitMark, tallyLines, hauthor]

/-! Reading a list -/

theorem tallyLines_entries {changes : List Entry} (h : ∀ e ∈ changes, e.Plain) (t : Tally)
    (a : Contributor) (n : Nat) (rest : List Text) :
    tallyLines (t.add a n) (some a) (changes.map Entry.line ++ rest) =
      (do checked (changes.flatMap Entry.counts)
          tallyLines (t.add a (n + (changes.map Entry.changed).sum)) (some a) rest) := by
  induction changes generalizing n with
  | nil => rfl
  | cons e changes ih =>
    obtain ⟨he, hchanges⟩ := List.forall_mem_cons.mp h
    rw [List.map_cons, List.cons_append, he.tallyLines_cons, Tally.add_add, List.flatMap_cons,
      checked_append]
    simp only [ih hchanges, bind_assoc, List.map_cons, List.sum_cons, Nat.add_assoc]

theorem tallyLines_commit {c : Commit} (h : c.Plain) (t : Tally) (current : Option Contributor)
    (rest : List Text) :
    tallyLines t current (c.lines ++ rest) =
      (do checked c.counts; tallyLines (t.add c.author c.changed) (some c.author) rest) := by
  rw [Commit.lines, List.cons_append, List.cons_append, tallyLines_author h, tallyLines_nil,
    tallyLines_entries h.changes, Nat.zero_add]
  rfl

theorem tallyLines_commits {commits : List Commit} (h : ∀ c ∈ commits, c.Plain) (t : Tally)
    (current : Option Contributor) (n : Nat) :
    tallyLines t current (commits.flatMap Commit.lines ++ List.replicate n []) =
      (do checked (counts commits)
          .ok (commits.foldl (fun t c => t.add c.author c.changed) t)) := by
  induction commits generalizing t current with
  | nil =>
    rw [List.flatMap_nil, List.nil_append, tallyLines_blank]
    rfl
  | cons c commits ih =>
    obtain ⟨hc, hcommits⟩ := List.forall_mem_cons.mp h
    rw [List.flatMap_cons, List.append_assoc, tallyLines_commit hc, counts, List.flatMap_cons,
      checked_append]
    simp only [ih hcommits, bind_assoc, List.foldl_cons, counts]

/-! Lines of a list -/

theorem newline_not_mem_of_mem_lines {c : Commit} (h : c.Plain) : ∀ l ∈ c.lines, '\n' ∉ l := by
  have hheading : '\n' ∉ commitMark :: (c.name ++ authorSeparator :: c.email) := by
    simp only [List.mem_cons, List.mem_append, not_or]
    exact ⟨by decide, h.name, by decide, h.email⟩
  refine List.forall_mem_cons.mpr ⟨hheading,
    List.forall_mem_cons.mpr ⟨List.not_mem_nil, fun l hl => ?_⟩⟩
  obtain ⟨e, he, rfl⟩ := List.mem_map.mp hl
  have hplain := h.changes e he
  simp only [Entry.line, List.mem_append, List.mem_cons, not_or]
  exact ⟨hplain.added.word.line, by decide, hplain.deleted.word.line, by decide, hplain.path⟩

theorem exists_lines_text {commits : List Commit} (h : ∀ c ∈ commits, c.Plain) (n : Nat) :
    ∃ m, Text.lines (text commits ++ List.replicate n '\n') =
      commits.flatMap Commit.lines ++ List.replicate m [] := by
  cases commits with
  | nil => exact ⟨n + 1, Text.lines_replicate n⟩
  | cons c commits =>
    refine ⟨n, ?_⟩
    have hfollows : Text.Follows (List.replicate n '\n') := fun c hc =>
      List.eq_of_mem_replicate (List.mem_of_mem_head? hc)
    rw [text, Text.lines_unlines_append (by simp [Commit.lines]) _ hfollows, Text.lines_replicate,
      List.replicate_succ, List.tail_cons]
    intro l hl
    obtain ⟨d, hd, hl⟩ := List.mem_flatMap.mp hl
    exact newline_not_mem_of_mem_lines (h d hd) l hl

theorem rankByLines_eq {commits : List Commit} (h : ∀ c ∈ commits, c.Plain) (n : Nat) :
    rankByLines (text commits ++ List.replicate n '\n') =
      (do checked (counts commits)
          .ok (Tally.weighing (commits.map Commit.author)
            (total (commits.map fun c => (c.author, c.changed)))).ranked) := by
  obtain ⟨m, hlines⟩ := exists_lines_text h n
  have hfold := Tally.foldl_add (commits.map fun c => (c.author, c.changed))
  rw [List.foldl_map, List.map_map] at hfold
  rw [rankByLines, hlines, tallyLines_commits h, hfold]
  cases checked (counts commits) <;> rfl

/-- The authors of a list rank by the lines that their commits changed in all, as long as the counts
can be read; the first count with too many digits ends the reading. -/
theorem rankByLines_text {commits : List Commit} (h : ∀ c ∈ commits, c.Plain) (n : Nat) :
    ((counts commits).find? (Text.digitLimit < ·.length) = none →
      ∃ ranking, rankByLines (text commits ++ List.replicate n '\n') = .ok ranking ∧
        IsRanking (commits.map Commit.author) (total (commits.map fun c => (c.author, c.changed)))
        ranking) ∧
    ∀ s, (counts commits).find? (Text.digitLimit < ·.length) = some s →
      rankByLines (text commits ++ List.replicate n '\n') = .error (.tooLong s.length) := by
  rw [rankByLines_eq h, checked]
  refine ⟨fun hshort => ?_, fun s hlong => ?_⟩
  · rw [hshort]
    exact ⟨_, rfl, isRanking_ranked _ _⟩
  · rw [hlong]
    rfl

/-- Jane commits twice, under two spellings of her address, and John in between; a picture has no
lines. -/
theorem rankByLines_text_interleaved :
    let jane :
        Commit := ⟨"Jane Doe".toList, "jane@example.com".toList,
        [⟨['3'], ['1'], "src/a.ts".toList⟩]⟩
    let john : Commit := ⟨"John".toList, " john@example.com".toList,
      [⟨['-'], ['-'], "logo.png".toList⟩]⟩
    let again : Commit := ⟨"J. Doe".toList, "JANE@example.com".toList,
      [⟨"10".toList, ['0'], "src/b.ts".toList⟩]⟩
    let commits := [jane, john, again]
    ∃ ranking, rankByLines (text commits ++ ['\n']) = .ok ranking ∧
      IsRanking (commits.map Commit.author) (total (commits.map fun c => (c.author, c.changed)))
      ranking := by
  intro jane john again commits
  have hplain : ∀ c ∈ commits, c.Plain := by decide
  exact (rankByLines_text hplain 1).1 (by decide)

def Commit.adding (added : Text) : Commit :=
  ⟨"Jane Doe".toList, "jane@example.com".toList, [⟨added, ['0'], "src/a.ts".toList⟩]⟩

theorem IsCount.adding {s : Text} (h : IsCount s) : (Commit.adding s).Plain := by
  have hname : '\n' ∉ "Jane Doe".toList ∧ authorSeparator ∉ "Jane Doe".toList := by decide
  have hemail : '\n' ∉ "jane@example.com".toList ∧ Text.strip "jane@example.com".toList ≠
      [] := by decide
  have hpath : '\n' ∉ "src/a.ts".toList := by decide
  exact ⟨hname.1, hname.2, hemail.1, hemail.2,
    List.forall_mem_singleton.mpr ⟨h, isCount_ofNat 0, hpath⟩⟩

theorem rankByLines_adding {s : Text} (h : IsCount s) (hlong : Text.digitLimit < s.length) :
    rankByLines (text [Commit.adding s]) = .error (.tooLong s.length) := by
  have hstop := rankByLines_eq (List.forall_mem_singleton.mpr h.adding) 0
  have hfirst : (counts [Commit.adding s]).find? (Text.digitLimit < ·.length) = some s :=
    List.find?_cons_of_pos (decide_eq_true hlong)
  rw [List.replicate_zero, List.append_nil, checked, hfirst] at hstop
  exact hstop

/-- The least number with too many digits stops the reading. -/
theorem not_rankByLines_text :
    let jane := Commit.adding (Text.ofNat (10 ^ Text.digitLimit))
    jane.Plain ∧ ∀ ranking, rankByLines (text [jane]) ≠ .ok ranking := by
  have hcount := isCount_ofNat (10 ^ Text.digitLimit)
  have hlong : Text.digitLimit < (Text.ofNat (10 ^ Text.digitLimit)).length := by
    rw [← Nat.not_le, Text.ofNat, Nat.length_toDigits_le_iff (by decide) (by decide)]
    exact Nat.lt_irrefl _
  refine ⟨hcount.adding, fun ranking hread => ?_⟩
  rw [rankByLines_adding hcount hlong] at hread
  cases hread

end Masthead.ChangeList
