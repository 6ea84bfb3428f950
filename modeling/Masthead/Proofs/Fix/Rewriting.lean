import Masthead.Proofs.Fix.Step

/-! Headers in the course of many runs. From the first run that changes the text on, the text is a
preamble, the header that was generated last, and a tail, and only the header changes. Names may be
of any length: that a line cannot be read back does not matter, as no line is taken for a
separator. -/

namespace Masthead.Fix
open Header (Apart)
open Source (Bare Closed splitPreamble)

/-- A run over a text: its header is fixed, or written anew. -/
inductive Run where
  | fix (f : Fixer) (past : Past)
  | create (f : Fixer) (past : Past)

namespace Run

def fixer : Run → Fixer
  | .fix f _ => f
  | .create f _ => f

def past : Run → Past
  | .fix _ past => past
  | .create _ past => past

def outcome (content : Text) : Run → Outcome
  | .fix f past => f.fix past content
  | .create f past => ⟨f.create past content, .created, [.create]⟩

def header (content : Text) : Run → Text
  | .fix f past => f.header past content
  | .create f past => f.newHeader past (f.existing content)

structure Sound (sign : Text) (r : Run) : Prop where
  writable : r.fixer.config.Writable
  sign_eq : r.fixer.config.commentPrefix = sign
  user : ∀ p ∈ r.fixer.user, p.OneLine
  chosen : ∀ p ∈ r.fixer.config.choose r.past.ranked, p.OneLine

end Run

structure Stand where
  text : Text
  header : Text

def Stand.after (s : Stand) (r : Run) : Stand := ⟨(r.outcome s.text).text, r.header s.text⟩

def Stand.play (s : Stand) (runs : List Run) : Stand := runs.foldl Stand.after s

def Written (sign header : Text) : Prop :=
  ∃ c people first last, c.Writable ∧ c.commentPrefix = sign ∧ (∀ p ∈ people, p.OneLine) ∧
    header = Header.generate c people first last

section Written
variable {sign header : Text}

theorem Written.bare (h : Written sign header) (hsign : Bare sign) (below : Text) :
    Bare (header ++ below) := by
  obtain ⟨c, people, first, last, hc, rfl, -, rfl⟩ := h
  exact Header.bare_generate hc.toFramed hsign below

theorem Written.parse? (h : Written sign header) {d : Dialect} (hd : d.commentPrefix = sign)
    {below : Text} (hb : Text.Follows below) :
    ∃ old, Header.parse? d (header ++ below) = some old ∧ old.raw = header := by
  obtain ⟨c, people, first, last, hc, rfl, hp, rfl⟩ := h
  exact Header.parse?_generate_raw hc hp hd hb

end Written

section Step
variable {sign pre tail : Text} {r : Run} {content : Text}

theorem Run.Sound.written (hr : r.Sound sign) (content : Text) :
    Written sign (r.header content) := by
  have hold : ∀ p ∈ r.fixer.existing content, p.OneLine := by
    intro p hp
    obtain ⟨h, hparse, hp⟩ := Fixer.mem_existing hp
    exact Header.parse?_oneLine hparse p hp
  cases r with
  | fix f past =>
    refine ⟨f.config, f.people past content, _, _, hr.writable, hr.sign_eq, fun p hp => ?_, rfl⟩
    rcases Fixer.mem_people hp with hp | hp | hp
    · exact hold p hp
    · exact hr.chosen p hp
    · exact hr.user p hp
  | create f past =>
    refine ⟨f.config, f.newPeople past (f.existing content), _, _, hr.writable, hr.sign_eq,
      fun p hp => ?_, rfl⟩
    rcases Fixer.mem_newPeople hp with hp | hp | hp
    · exact hold p hp
    · exact hr.chosen p hp
    · exact hr.user p hp

theorem Run.outcome_cases (r : Run) (content : Text) :
    ((r.outcome content).action.modifies = false ∧ (r.outcome content).text = content ∧
      ∃ h, Header.parse? r.fixer.config.dialect (splitPreamble content).2 = some h ∧
        h.raw = r.header content) ∨
    ((r.outcome content).action.modifies = true ∧
      (r.outcome content).text = Source.joinPreamble (splitPreamble content).1
        (Header.replace (splitPreamble content).2 (r.header content)
          (Header.parse? r.fixer.config.dialect (splitPreamble content).2))) := by
  cases r with
  | fix f past => exact f.fix_cases past content
  | create f past => exact Or.inr ⟨rfl, rfl⟩

/-- The header generated last stands between the preamble and the tail. -/
structure Standing (sign pre tail : Text) (s : Stand) : Prop where
  closed : Closed pre
  apart : Apart tail
  written : Written sign s.header
  text : s.text = pre ++ (s.header ++ tail)

theorem exists_standing (hr : r.Sound sign) {s : Stand}
    (hm : (r.outcome s.text).action.modifies = true) :
    ∃ pre tail, Standing sign pre tail (s.after r) := by
  rcases r.outcome_cases s.text with ⟨hkeep, -⟩ | ⟨-, htext⟩
  · rw [hm] at hkeep
    cases hkeep
  · obtain ⟨pre, tail, hpre, ht, hput⟩ :=
      exists_put r.fixer.config.dialect s.text (r.header s.text)
    exact ⟨pre, tail, hpre, ht, hr.written s.text, htext.trans hput⟩

theorem Standing.after {s : Stand} (h : Standing sign pre tail s) (hsign : Bare sign)
    (hr : r.Sound sign) : Standing sign pre tail (s.after r) := by
  have hsplit : splitPreamble s.text = (pre, s.header ++ tail) := by
    rw [h.text]
    exact h.closed.splitPreamble_append (h.written.bare hsign tail)
  obtain ⟨old, hparse, hraw⟩ :=
    h.written.parse? (d := r.fixer.config.dialect) hr.sign_eq h.apart.follows
  refine ⟨h.closed, h.apart, hr.written s.text, ?_⟩
  rcases r.outcome_cases s.text with ⟨-, htext, old', hparse', hraw'⟩ | ⟨-, htext⟩
  · rw [hsplit, hparse] at hparse'
    obtain rfl := Option.some.inj hparse'
    simp only [Stand.after]
    rw [htext, ← hraw', hraw]
    exact h.text
  · rw [hsplit, hparse, Header.replace_apart hparse hraw h.apart, Source.joinPreamble,
      h.closed.closePreamble_eq] at htext
    exact htext

theorem Standing.play {s : Stand} (h : Standing sign pre tail s) (hsign : Bare sign)
    {runs : List Run} (hruns : ∀ r ∈ runs, r.Sound sign) :
    Standing sign pre tail (s.play runs) := by
  induction runs generalizing s with
  | nil => exact h
  | cons r runs ih =>
    exact ih (h.after hsign (hruns r List.mem_cons_self)) fun q hq =>
      hruns q (List.mem_cons_of_mem _ hq)

end Step

/-- Once a run has changed the text, the text is the same preamble, the header generated last and
the same tail after any further runs; the header is found there, whatever the columns it is read
under. -/
theorem headers_never_stack {sign : Text} (hsign : Bare sign) {s : Stand}
    {before : List Run} {r : Run} (hr : r.Sound sign)
    (hm : (r.outcome (s.play before).text).action.modifies = true) :
    ∃ pre tail, ∀ later : List Run, (∀ q ∈ later, q.Sound sign) →
      let t := s.play (before ++ r :: later)
      t.text = pre ++ (t.header ++ tail) ∧
        splitPreamble t.text = (pre, t.header ++ tail) ∧
        ∀ d : Dialect, d.commentPrefix = sign →
          ∃ h, Header.parse? d (splitPreamble t.text).2 = some h ∧ h.raw = t.header := by
  obtain ⟨pre, tail, hstanding⟩ := exists_standing hr hm
  refine ⟨pre, tail, fun later hlater => ?_⟩
  dsimp only
  have hplay : s.play (before ++ r :: later) = ((s.play before).after r).play later := by
    simp [Stand.play]
  rw [hplay]
  have hs := hstanding.play hsign hlater
  have hsplit := hs.closed.splitPreamble_append (hs.written.bare hsign tail)
  rw [← hs.text] at hsplit
  refine ⟨hs.text, hsplit, fun d hd => ?_⟩
  rw [hsplit]
  exact hs.written.parse? hd hs.apart.follows

def shellRuns : List Run :=
  [.create { Fixer.shell with year := 2025 } { ranked := [.john] },
    .fix { Fixer.shell with user := none } {}]

def shellStand : Stand := Stand.play ⟨Fixer.script, []⟩ (.fix .shell {} :: shellRuns)

theorem headers_never_stack_script :
    ∃ pre tail, shellStand.text = pre ++ (shellStand.header ++ tail) ∧
      splitPreamble shellStand.text = (pre, shellStand.header ++ tail) ∧
      ∃ h, Header.parse? Config.shell.dialect (splitPreamble shellStand.text).2 = some h ∧
        h.raw = shellStand.header := by
  have hw := Config.shell_readable.toWritable
  have hfirst : (Run.fix .shell {}).Sound Config.shell.commentPrefix :=
    ⟨hw, rfl, by decide, by decide +kernel⟩
  have hlater : ∀ q ∈ shellRuns, q.Sound Config.shell.commentPrefix := by
    intro q hq
    simp only [shellRuns, List.mem_cons, List.not_mem_nil, or_false] at hq
    rcases hq with rfl | rfl
    · exact ⟨hw, rfl, by decide, by decide +kernel⟩
    · exact ⟨hw, rfl, by decide, by decide +kernel⟩
  obtain ⟨pre, tail, h⟩ := @headers_never_stack _ Fixer.shell_bare ⟨Fixer.script, []⟩ [] _ hfirst
    (by decide)
  obtain ⟨htext, hsplit, hparse⟩ := h shellRuns hlater
  exact ⟨pre, tail, htext, hsplit, hparse _ rfl⟩

end Masthead.Fix
