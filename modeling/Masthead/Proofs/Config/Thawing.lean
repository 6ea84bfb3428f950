import Masthead.Proofs.Header.Usable
import Mathlib.Logic.Function.Iterate

/-! Thawing a configuration and freezing it again. Every value stays, as nothing in a frozen
configuration has to be filled in or replaced. The remarks stay as well, but those on values that
freezing keeps as they are, suspect or not, are made once more each time; their numbers were put
into words before, so freezing does not fail. -/

namespace Masthead

theorem Selection.ofName?_name (s : Selection) : ofName? s.name.toList = some s := by
  cases s <;> decide

namespace Config
variable {c : Config}

theorem filled_thaw (hfill : c.separatorChar ≠ []) (hpage : c.licenseUrl = [] →
    License.page c.spdxLicense = []) :
    c.thaw.filled = { c with diagnostics := c.diagnostics ++ c.thaw.notes } := by
  have hseparator : (if c.separatorChar.isEmpty then defaultSeparatorChar else c.separatorChar) =
      c.separatorChar :=
    if_neg (by simpa using hfill)
  have hurl : (if c.licenseUrl.isEmpty then License.page c.spdxLicense else c.licenseUrl) =
      c.licenseUrl := by
    split_ifs with hempty
    · rw [List.isEmpty_iff] at hempty
      rw [hpage hempty, hempty]
    · rfl
  have hselection : (Selection.ofName? c.selection.name.toList).getD defaultSelection =
      c.selection := by
    rw [Selection.ofName?_name]
    rfl
  rw [Draft.filled, mk.injEq]
  exact ⟨rfl, hseparator, rfl, rfl, rfl, rfl, rfl, rfl, hurl, rfl, Int.toNat_natCast _, hselection,
    rfl, rfl, rfl, rfl, rfl⟩

theorem worded_thaw (c : Config) :
    c.thaw.worded = (if c.width < 0 then [c.width] else []) ++
      if room c.nameColumn c.commentPrefix < defaultIndent
      then [c.nameColumn, room c.nameColumn c.commentPrefix]
      else [] := by
  have hlimit : ¬ c.thaw.maxContributorsValue < 0 := Int.not_lt.mpr (Int.natCast_nonneg _)
  rw [Draft.worded_eq, if_neg hlimit, List.append_nil]
  rfl

def refrozen (c : Config) : Except Text.NumeralFault Config := c.thaw.freeze

theorem iterate_refrozen (hfill : c.separatorChar ≠ []) (hpage : c.licenseUrl = [] →
    License.page c.spdxLicense = [])
    (hwords : c.thaw.worded.all Text.isWritable = true) (n : Nat) :
    (· >>= refrozen)^[n] (Except.ok c) =
      .ok { c with diagnostics := c.diagnostics ++ (List.replicate n c.thaw.notes).flatten } := by
  induction n with
  | zero => simp
  | succ n ih =>
    rw [Function.iterate_succ_apply', ih]
    change Draft.freeze (thaw _) = _
    rw [Draft.freeze_of_writable (by exact hwords), filled_thaw (by exact hfill) (by exact hpage),
      Except.ok.injEq, mk.injEq]
    and_intros
    all_goals try rfl
    rw [List.replicate_succ', List.flatten_concat, List.append_assoc]
    rfl

end Config

namespace Draft
variable {d : Draft} {c : Config}

def keptNotes (d : Draft) : List Diagnostic :=
  d.widthNotes ++ ((if d.separatorValue.isEmpty then [] else d.separatorNotes) ++ d.columnNotes)

theorem separatorNotes_thaw_filled (d : Draft) :
    d.filled.thaw.separatorNotes = if d.separatorValue.isEmpty then [] else d.separatorNotes := by
  have hvalue : d.filled.thaw.separatorValue =
      if d.separatorValue.isEmpty then Config.defaultSeparatorChar else d.separatorValue := rfl
  by_cases hempty : d.separatorValue.isEmpty
  · rw [if_pos hempty] at hvalue ⊢
    rw [separatorNotes, hvalue]
    rfl
  · rw [if_neg hempty] at hvalue ⊢
    rw [separatorNotes, separatorNotes, hvalue]

theorem notes_thaw_filled (d : Draft) : d.filled.thaw.notes = d.keptNotes := by
  have hlimit : d.filled.thaw.maxContributorsNotes = [] :=
    maxContributorsNotes_eq_nil_iff.mpr (Int.natCast_nonneg _)
  have hselection : d.filled.thaw.selectionNotes = [] := by
    have hvalue : d.filled.thaw.selectionValue = d.filled.selection.name.toList := rfl
    rw [selectionNotes, hvalue, Selection.ofName?_name]
  rw [notes_eq, hlimit, hselection, List.append_nil, List.append_nil, separatorNotes_thaw_filled]
  rfl

theorem writable_thaw_filled (h : d.worded.all Text.isWritable = true) :
    d.filled.thaw.worded.all Text.isWritable = true := by
  rw [worded_eq, List.all_append, List.all_append, Bool.and_eq_true, Bool.and_eq_true] at h
  rw [Config.worded_thaw, List.all_append, Bool.and_eq_true]
  exact ⟨h.1, h.2.1⟩

theorem keptNotes_eq_nil_iff :
    d.keptNotes = [] ↔
      0 ≤ d.widthValue ∧ (∀ x ∈ d.separatorValue, x ∈ Config.separatorChars) ∧
        (Config.defaultIndent : Int) ≤ Config.room d.nameColumnValue d.commentPrefixValue := by
  have hseparator : (if d.separatorValue.isEmpty then [] else d.separatorNotes) = [] ↔
      ∀ x ∈ d.separatorValue, x ∈ Config.separatorChars := by
    by_cases hempty : d.separatorValue = []
    · simp [hempty]
    · rw [if_neg (by simpa using hempty), separatorNotes, if_neg (by simpa using hempty),
        remark_eq_nil_iff]
      simp
  rw [keptNotes, List.append_eq_nil_iff, List.append_eq_nil_iff, widthNotes_eq_nil_iff, hseparator,
    columnNotes_eq_nil_iff]

theorem diagnostics_setAll (d : Draft) (settings : List Setting) :
    (d.setAll settings).diagnostics = d.diagnostics := by
  induction settings generalizing d with
  | nil => rfl
  | cons s settings ih =>
    have hstep : (d.set s).diagnostics = d.diagnostics := by
      cases s <;> rfl
    exact (ih (d.set s)).trans hstep

/-- Thawed and frozen again any number of times, a configuration keeps all values and remarks, and
makes its remarks on kept values once more each time. It stays as it is exactly if there are none.
No change in between takes away a remark. -/
theorem freeze_thaw_freeze (hc : d.freeze = .ok c) :
    (∀ n, (· >>= Config.refrozen)^[n] d.freeze =
        .ok { c with diagnostics := c.diagnostics ++ (List.replicate n d.keptNotes).flatten }) ∧
      (c.thaw.freeze = .ok c ↔
        0 ≤ d.widthValue ∧ (∀ x ∈ d.separatorValue, x ∈ Config.separatorChars) ∧
          (Config.defaultIndent : Int) ≤ Config.room d.nameColumnValue d.commentPrefixValue) ∧
      ∀ settings c', (c.thaw.setAll settings).freeze = .ok c' →
        c.diagnostics <+: c'.diagnostics := by
  rw [hc]
  obtain ⟨hworded, rfl⟩ := freeze_eq_ok_iff.mp hc
  have hfill := d.filled_separatorChar_ne_nil
  have hwords := writable_thaw_filled hworded
  have hrounds := fun n => Config.iterate_refrozen hfill licenseUrl_filled hwords n
  rw [notes_thaw_filled] at hrounds
  refine ⟨hrounds, ?_, fun settings c' hc' => ?_⟩
  · rw [← keptNotes_eq_nil_iff, freeze_of_writable hwords,
      Config.filled_thaw hfill licenseUrl_filled, notes_thaw_filled, Except.ok.injEq]
    constructor
    · intro h
      have hdiagnostics := congrArg Config.diagnostics h
      exact List.append_right_eq_self.mp hdiagnostics
    · intro h
      rw [h, List.append_nil]
  · obtain rfl := eq_filled hc'
    change _ <+: (d.filled.thaw.setAll settings).diagnostics ++ _
    rw [diagnostics_setAll]
    exact List.prefix_append _ _

section Examples

def negative : Draft := { width := some (-1) }

theorem negative_remarked_twice :
    ∃ c c', negative.freeze = .ok c ∧ c.thaw.freeze = .ok c' ∧ c' ≠ c ∧
      c.diagnostics = [.warning "width -1 is negative; separators collapse"] ∧
      c'.diagnostics =
        [.warning "width -1 is negative; separators collapse",
          .warning "width -1 is negative; separators collapse"] :=
  ⟨negative.filled, negative.filled.thaw.filled, freeze_of_small (by decide),
    freeze_of_small (by decide), by decide, by decide, by decide⟩

def suspect : Draft where
  width := some (-1)
  separatorChar := some []
  nameColumn := some 5
  spdxLicense := some "MIT".toList
  maxContributors := some (-7)

theorem freeze_thaw_freeze_suspect :
    ∃ c c', suspect.freeze = .ok c ∧ (· >>= Config.refrozen)^[3] suspect.freeze = .ok c' ∧
      c.diagnostics.length = 4 ∧ c'.diagnostics.length = 10 ∧ c'.separatorChar = ['-'] ∧
      c'.maxContributors = 0 ∧
      ¬ c.thaw.freeze = .ok c ∧
      ∃ c'', (c.thaw.setAll [.width (some 80)]).freeze = .ok c'' ∧
      c.diagnostics <+: c''.diagnostics := by
  have hc : suspect.freeze = .ok suspect.filled := freeze_of_small (by decide)
  have hset : (suspect.filled.thaw.setAll [.width (some 80)]).freeze =
      .ok (suspect.filled.thaw.setAll [.width (some 80)]).filled := freeze_of_small (by decide)
  obtain ⟨hrounds, hstays, hkept⟩ := freeze_thaw_freeze hc
  exact ⟨_, _, hc, hrounds 3, by
    decide, by decide, by decide, by decide, mt hstays.mp (by decide), _, hset, hkept _ _ hset⟩

end Examples

end Draft
end Masthead
