import Masthead.Proofs.Contributor.Reading
import Masthead.Proofs.Workspace.Looking

/-! What git is asked about the past of a file, and what a setting says about records. Whatever git
prints, an answer comes back unless digits stand where a number is looked for and cannot be read as
one. -/

namespace Masthead
namespace Git
variable {path : Path} {selection : Selection} {limit : Int} {w : Workspace} {p : Contributor}
  {log : Text} {e : Fault}

/-! What git prints -/

def printed (arguments : List Text) (directory : Path) (w : Workspace) : Text :=
  (w.git w.calls (callOf arguments directory w)).answer?.getD []

def authorOptions : Selection → List Text
  | .lines => ["--numstat", "--format=" ++ commitMark :: authorFormat]
  | _ => ["--format=" ++ authorFormat]

def authorLog (path : Path) (selection : Selection) (w : Workspace) : Text :=
  printed (logArguments (authorOptions selection) path.name) path.parent w

def yearLog (path : Path) (w : Workspace) : Text :=
  printed (logArguments ["--format=%ad", "--date=format:%Y"] path.name) path.parent w

/-! Authors -/

def rankedIn (log : Text) : Selection → Except Text.NumeralFault (List Contributor)
  | .manual => .ok []
  | .lines => rankByLines log
  | .recent => .ok (rankByRecency (authorsOf log))
  | .commits => .ok (rankByCommits (authorsOf log))

theorem rankByLines_nil : rankByLines [] = .ok [] := by
  have hranked : Tally.ranked [] = [] := by
    rw [Tally.ranked, List.mergeSort_nil, Tally.authors, List.map_nil]
  exact congrArg Except.ok hranked

theorem authors_fst_of_le (h : limit ≤ 0) : (authors path selection limit w).1 = .ok [] := by
  rw [authors, if_pos h]
  rfl

theorem authors_fst (h : 0 < limit) :
    (authors path selection limit w).1 =
      ((rankedIn (authorLog path selection w) selection).mapError Fault.number).map
      (·.take limit.toNat) := by
  rw [authors, if_neg (by omega), authorLog, printed]
  have hrun := run_eq (logArguments (authorOptions selection) path.name) path.parent w
  cases selection with
  | manual => rfl
  | lines =>
    refine (congrArg Prod.fst (bind_of_ok _ hrun)).trans ?_
    rcases (w.git w.calls _).answer? with _ | _ | ⟨c, log⟩
    · rw [Option.getD_none, rankedIn, rankByLines_nil]
      rfl
    · rw [Option.getD_some, rankedIn, rankByLines_nil]
      rfl
    · change ((ofNumeral (rankByLines (c :: log)) >>= fun ranked => pure (ranked.take limit.toNat) :
        Act _) _).1 = _
      rw [Option.getD_some, rankedIn]
      cases rankByLines (c :: log) <;> rfl
  | commits => exact congrArg Prod.fst (bind_of_ok _ hrun)
  | recent => exact congrArg Prod.fst (bind_of_ok _ hrun)

theorem rankedIn_eq_ok_iff (log : Text) (selection : Selection) :
    (∃ ranking, rankedIn log selection = .ok ranking) ↔
      (selection = .lines → ∀ s, CountAmong false (Text.lines log) s → Text.Readable s) := by
  cases selection with
  | lines => exact (rankByLines_eq_ok_iff log).trans (imp_iff_right rfl).symm
  | _ => exact iff_of_true ⟨_, rfl⟩ (by rintro ⟨⟩)

theorem authors_fst_eq_ok_iff :
    (∃ people, (authors path selection limit w).1 = .ok people) ↔
      (0 < limit → selection = .lines →
        ∀ s, CountAmong false (Text.lines (authorLog path selection w)) s → Text.Readable s) := by
  by_cases h : 0 < limit
  · rw [imp_iff_right h, authors_fst h, ← rankedIn_eq_ok_iff]
    exact exists_map_mapError_eq_ok_iff
  · exact iff_of_true ⟨[], authors_fst_of_le (by omega)⟩ fun hpos => absurd hpos h

theorem authors_fst_eq_error (h : (authors path selection limit w).1 = .error e) :
    ∃ cause, e = .number cause := by
  by_cases hpos : 0 < limit
  · rw [authors_fst hpos] at h
    obtain ⟨cause, -, he⟩ := exists_of_map_mapError_eq_error h
    exact ⟨cause, he⟩
  · rw [authors_fst_of_le (by omega)] at h
    cases h

def authorMark : Selection → Text
  | .lines => [commitMark]
  | _ => []

theorem mem_of_rankedIn {ranking : List Contributor} (h : rankedIn log selection = .ok ranking)
    (hp : p ∈ ranking) :
    ∃ author, authorMark selection ++ author ∈ Text.lines log ∧ author? author = some p := by
  cases selection with
  | manual =>
    cases h
    cases hp
  | lines => exact mem_of_rankByLines h hp
  | recent =>
    cases h
    rw [rankByRecency_eq] at hp
    exact List.mem_filterMap.mp (mem_of_mem_distinctFrom hp)
  | commits =>
    cases h
    exact List.mem_filterMap.mp (mem_of_mem_rankByCommits hp)

theorem mem_authors {people : List Contributor}
    (h : (authors path selection limit w).1 = .ok people) (hp : p ∈ people) :
    ∃ author name email, authorMark selection ++ author ∈ Text.lines (authorLog path selection w) ∧
      Names author name email ∧ p = ⟨Text.strip name, Text.strip email⟩ := by
  by_cases hpos : 0 < limit
  · rw [authors_fst hpos] at h
    obtain ⟨ranking, hranking, rfl⟩ := exists_of_map_eq_ok h
    have hranked := eq_ok_of_mapError_eq_ok hranking
    obtain ⟨author, hline, hauthor⟩ := mem_of_rankedIn hranked (List.mem_of_mem_take hp)
    obtain ⟨name, email, hnames, rfl⟩ := author?_eq_some hauthor
    exact ⟨author, name, email, hline, hnames, rfl⟩
  · rw [authors_fst_of_le (by omega)] at h
    cases h
    cases hp

/-! Years -/

def span : List Nat → Option (Int × Int)
  | [] => none
  | y :: ys => some (((ys.foldl min y : Nat) : Int), ((ys.foldl max y : Nat) : Int))

theorem years_fst :
    (years path w).1 = ((numbersIn (yearLog path w)).mapError Fault.number).map span := by
  rw [years, yearLog, printed]
  have hrun := run_eq (logArguments ["--format=%ad", "--date=format:%Y"] path.name) path.parent w
  refine (congrArg Prod.fst (bind_of_ok _ hrun)).trans ?_
  rcases (w.git w.calls _).answer? with _ | output
  · rfl
  · change ((ofNumeral (numbersIn output) >>= _ : Act _) _).1 = _
    rw [Option.getD_some, bind_apply]
    rcases numbersIn output with _ | _ | ⟨y, ys⟩ <;> rfl

theorem years_fst_eq_ok_iff :
    (∃ found, (years path w).1 = .ok found) ↔ ∀ word ∈ Text.words (yearLog path w),
    Text.Readable word := by
  rw [years_fst, ← Text.filterMapM_numeral_eq_ok_iff, ← numbersIn]
  exact exists_map_mapError_eq_ok_iff

theorem years_fst_eq_error (h : (years path w).1 = .error e) : ∃ cause, e = .number cause := by
  rw [years_fst] at h
  obtain ⟨cause, -, he⟩ := exists_of_map_mapError_eq_error h
  exact ⟨cause, he⟩

/-! Records -/

theorem levelOf?_eq_ok_iff (setting : Text) :
    (∃ level, Log.levelOf? setting = .ok level) ↔ Text.Readable (Text.strip setting) := by
  rw [← Text.readable_capitals, ← Text.numeral_eq_ok_iff, Log.levelOf?]
  rcases Text.numeral ((Text.strip setting).map Text.capital) with _ | _ | n <;>
    simp [bind, Except.bind]

/-- Looking up authors, years and the level of records gives an answer unless digits that cannot be
read stand where a number is looked for: a count in a change list, one of the years, the level
itself. Nothing else ends the lookup. Whoever is found is named in the log, without the blanks
around name and address, so that an address is empty exactly where blanks alone stood for it. -/
theorem lookups_answer (path : Path) (selection : Selection) (limit : Int) (setting : Text)
    (w : Workspace) :
    ((∃ people, (authors path selection limit w).1 = .ok people) ↔
      (0 < limit → selection = .lines →
        ∀ s, CountAmong false (Text.lines (authorLog path selection w)) s → Text.Readable s)) ∧
    (∀ people, (authors path selection limit w).1 = .ok people →
      ∀ p ∈ people, Text.strip p.email = p.email ∧
      ∃ author name email, authorMark selection ++ author ∈
      Text.lines (authorLog path selection w) ∧
        Names author name email ∧ p = ⟨Text.strip name, Text.strip email⟩ ∧
        (p.email = [] ↔ Text.Blank email)) ∧
    ((∃ found, (years path w).1 = .ok found) ↔ ∀ word ∈ Text.words (yearLog path w),
      Text.Readable word) ∧
    (∀ e, (authors path selection limit w).1 = .error e ∨ (years path w).1 = .error e →
      ∃ cause, e = .number cause) ∧
    ((∃ level, Log.levelOf? setting = .ok level) ↔ Text.Readable (Text.strip setting)) := by
  refine ⟨authors_fst_eq_ok_iff, fun people hpeople p hp => ?_, years_fst_eq_ok_iff, fun e he => ?_,
    levelOf?_eq_ok_iff setting⟩
  · obtain ⟨author, name, email, hline, hnames, rfl⟩ := mem_authors hpeople hp
    have hstrip : Text.strip (Text.strip email) = Text.strip email :=
      Text.strip_eq_self (Text.head_strip email) (Text.last_strip email)
    refine ⟨hstrip, author, name, email, hline, hnames, rfl, ?_⟩
    rw [← Text.strip_isEmpty_iff, List.isEmpty_iff]
  · rcases he with he | he
    · exact authors_fst_eq_error he
    · exact years_fst_eq_error he

section Examples

def printing (output : Text) : Workspace where
  tree := .dir []
  cwd := []
  year := 2025
  git := fun _ _ => .exit 0 output

/-- A superscript is a digit that no number is written with, and blanks can stand where an address
belongs. -/
theorem lookups_stopped :
    let file : Path := ⟨[], ["a.ts".toList]⟩
    let numstat := commitMark :: "Jane Doe".toList ++ authorSeparator ::
      "jane@example.com\n\n²\t0\ta.ts".toList
    let log := "Jane Doe".toList ++ authorSeparator :: " \nJohn Roe".toList ++ authorSeparator ::
      "john@example.com".toList
    (authors file .lines 3 (printing numstat)).1 = .error (.number (.notDecimal ['²'])) ∧
      (years file (printing ['²'])).1 = .error (.number (.notDecimal ['²'])) ∧
      Log.levelOf? ['²'] = .error (.notDecimal ['²']) ∧
      (authors file .recent 3 (printing log)).1 =
        .ok [⟨"Jane Doe".toList, []⟩, ⟨"John Roe".toList, "john@example.com".toList⟩] := by
  decide

end Examples

end Git
end Masthead
