import Masthead.Proofs.Config.Table
import Masthead.Proofs.Config.Thawing

/-! Writing a configuration into a table and reading it back. The table holds every field as a value
of the right kind under a known key, so it is read without a remark. Freezing what was read gives
the same configuration, as nothing in a frozen configuration has to be filled in or replaced
again. -/

namespace Masthead

namespace Draft

/-- Made of the defaults and of tables, by merging. -/
inductive Assembled : Draft → Prop
  | defaults : Assembled defaults
  | table (data : Table) (file : Option Text) (camelCase : Bool) : Assembled
      (ofTable data file camelCase)
  | merge {lower upper : Draft} : Assembled lower → Assembled upper →
      Assembled (lower.mergeWith upper)

def Named (d : Draft) : Prop := ∀ people ∈ d.manualContributors, ∀ p ∈ people, p.name ≠ [] ∧
    p.email ≠ []

end Draft

namespace Config
variable {t : Table} {key : Text} {c : Config}

theorem asContributor?_some {p : Contributor} (h : asContributor? t = some p) :
    p.name ≠ [] ∧ p.email ≠ [] := by
  rw [asContributor?] at h
  split at h
  · split_ifs at h with hempty
    obtain rfl := Option.some.inj h
    simpa using hempty
  · cases h

theorem contributors_named {people : List Contributor} (h : (contributors t key).1 = some people) :
    ∀ p ∈ people, p.name ≠ [] ∧ p.email ≠ [] := by
  rw [contributors_fst, setting] at h
  obtain ⟨v, -, hv⟩ := Option.bind_eq_some_iff.mp h
  cases v with
  | list vs =>
    obtain rfl := Option.some.inj hv
    intro p hp
    obtain ⟨w, -, hw⟩ := List.mem_filterMap.mp hp
    obtain ⟨inner, -, hinner⟩ := Option.bind_eq_some_iff.mp hw
    exact asContributor?_some hinner
  | _ => cases hv

end Config

theorem Draft.Assembled.named {d : Draft} (h : d.Assembled) : d.Named := by
  induction h with
  | defaults =>
    intro people hpeople
    obtain rfl : [] = people := Option.some.inj hpeople
    simp
  | table data file camelCase => exact fun people hpeople => Config.contributors_named hpeople
  | @merge lower upper _ _ hlower hupper =>
    intro people hpeople
    rw [Option.mem_def, mergeWith] at hpeople
    dsimp only at hpeople
    cases hupper' : upper.manualContributors with
    | none =>
      rw [hupper'] at hpeople
      exact hlower people hpeople
    | some _ =>
      rw [hupper'] at hpeople
      exact hupper people (hupper'.trans hpeople)

namespace Config
variable {c : Config}

/-! The table of a configuration -/

theorem keys_toTable (c : Config) :
    c.toTable.keys = (["width", "separator_char", "comment_prefix", "name_column", "email_column",
      "license_url_column", "maintainer_column", "spdx_license", "license_url", "maintainer_email",
      "max_contributors", "contributor_selection", "include", "exclude"].map String.toList) ++
      if c.manualContributors.isEmpty then [] else ["manual_contributors".toList] := by
  rw [toTable, Table.keys, List.map_append]
  split_ifs <;> rfl

theorem keys_toTable_known (c : Config) : c.toTable.keys ⊆ knownKeys := by
  rw [keys_toTable]
  split_ifs <;> decide

theorem integers_toTable (c : Config) :
    integer c.toTable "width" = (some c.width, []) ∧
      integer c.toTable "name_column" = (some c.nameColumn, []) ∧
      integer c.toTable "email_column" = (some c.emailColumn, []) ∧
      integer c.toTable "license_url_column" = (some c.licenseUrlColumn, []) ∧
      integer c.toTable "maintainer_column" = (some c.maintainerColumn, []) ∧
      integer c.toTable "max_contributors" = (some (c.maxContributors : Int), []) :=
  ⟨rfl, rfl, rfl, rfl, rfl, rfl⟩

theorem texts_toTable (c : Config) :
    text c.toTable "separator_char" = (some c.separatorChar, []) ∧
      text c.toTable "comment_prefix" = (some c.commentPrefix, []) ∧
      text c.toTable "spdx_license" = (some c.spdxLicense, []) ∧
      text c.toTable "license_url" = (some c.licenseUrl, []) ∧
      text c.toTable "maintainer_email" = (some c.maintainerEmail, []) ∧
      text c.toTable "contributor_selection" = (some c.selection.name.toList, []) :=
  ⟨rfl, rfl, rfl, rfl, rfl, rfl⟩

theorem lists_toTable (c : Config) :
    textList c.toTable "include" = (some c.includes, []) ∧
      textList c.toTable "exclude" = (some c.excludes, []) :=
  ⟨textList_of_given rfl, textList_of_given rfl⟩

theorem given?_contributors (c : Config) :
    given? c.toTable "manual_contributors" =
      if c.manualContributors = [] then none
      else some (.list (c.manualContributors.map fun p => .table (personTable p))) := by
  rw [toTable]
  cases c.manualContributors <;> rfl

theorem contributors_toTable (h : ∀ p ∈ c.manualContributors, p.name ≠ [] ∧ p.email ≠ []) :
    contributors c.toTable "manual_contributors" =
      (if c.manualContributors = [] then none else some c.manualContributors, []) := by
  have hgiven := c.given?_contributors
  split_ifs at hgiven ⊢
  · rw [contributors, tableList, hgiven]
  · exact contributors_of_given hgiven h

theorem ofTable_toTable (h : ∀ p ∈ c.manualContributors, p.name ≠ [] ∧ p.email ≠ [])
    (file : Option Text) :
    Draft.ofTable c.toTable file false =
      { c.thaw with
        manualContributors := if c.manualContributors = [] then none else some c.manualContributors
        files := file.toList
        diagnostics := [] } := by
  obtain ⟨hwidth, hname, hemail, hurl, hmaintainer, hmax⟩ := c.integers_toTable
  obtain ⟨hseparator, hsign, hlicense, hpage, haddress, hselection⟩ := c.texts_toTable
  obtain ⟨hincludes, hexcludes⟩ := c.lists_toTable
  simp only [Draft.ofTable, Draft.spelled, Bool.false_eq_true, if_false, hwidth, hname, hemail,
    hurl, hmaintainer, hmax, hseparator, hsign, hlicense, hpage, haddress, hselection, hincludes,
    hexcludes, contributors_toTable h, unknownNotes_eq_nil c.keys_toTable_known, List.append_nil]
  rfl

theorem writable_toTable (h : ∀ p ∈ c.manualContributors, p.name ≠ [] ∧ p.email ≠ []) :
    (worded c.toTable).all Value.isWritable = true := by
  have htexts (l : List Text) : (l.map Value.text).all Value.isWritable = true := by
    rw [List.all_map, List.all_eq_true]
    exact fun _ _ => rfl
  rw [worded]
  simp only [List.all_append, Bool.and_eq_true]
  refine ⟨⟨⟨rfl, rfl⟩, ?_⟩, ?_⟩
  · change (c.includes.map Value.text ++ (c.excludes.map Value.text ++ [])).all Value.isWritable =
      true
    rw [List.append_nil, ← List.map_append]
    exact htexts _
  · -- nobody is left out, so nobody is reported
    rw [worded.rest, given?_contributors]
    split_ifs
    · rfl
    · refine List.all_eq_true.mpr fun v hv => ?_
      obtain ⟨hv, hnobody⟩ := List.mem_filter.mp hv
      obtain ⟨p, hp, rfl⟩ := List.mem_map.mp hv
      simp [asTable?, asContributor?_personTable (h p hp).1 (h p hp).2] at hnobody

/-- Nothing is left open, and nothing would be replaced. -/
structure Settled (c : Config) : Prop where
  fill_ne : c.separatorChar ≠ []
  page : c.licenseUrl = [] → License.page c.spdxLicense = []
  people : ∀ p ∈ c.manualContributors, p.name ≠ [] ∧ p.email ≠ []

theorem Settled.filled_ofTable (h : c.Settled) (file : Option Text) :
    (Draft.ofTable c.toTable file false).filled =
    { c with files := file.toList, diagnostics := c.thaw.notes } := by
  have hpeople : (if c.manualContributors = [] then none else some c.manualContributors).getD [] =
      c.manualContributors := by
    split_ifs with hempty
    · exact hempty.symm
    · rfl
  have hthaw := filled_thaw h.fill_ne h.page
  rw [ofTable_toTable h.people file]
  change { c.thaw.filled with
    manualContributors :=
      (if c.manualContributors = [] then none else some c.manualContributors).getD []
    files := file.toList
    diagnostics := c.thaw.notes } = _
  rw [hthaw, hpeople]

theorem Settled.freeze_ofTable (h : c.Settled) (hwords : c.thaw.worded.all Text.isWritable = true)
    (file : Option Text) :
    (Draft.ofTable c.toTable file false).freeze =
      .ok { c with files := file.toList, diagnostics := c.thaw.notes } := by
  rw [Draft.freeze_of_writable, h.filled_ofTable]
  rw [ofTable_toTable h.people file]
  exact hwords

end Config

namespace Draft
variable {d : Draft} {c : Config}

theorem Named.settled_filled (h : d.Named) : d.filled.Settled where
  fill_ne := d.filled_separatorChar_ne_nil
  page := licenseUrl_filled
  people := by
    simp only [filled]
    cases hpeople : d.manualContributors with
    | none => simp
    | some people => exact h people hpeople

/-- A configuration that was written into a table is read back as it was. No remark is made on the
table, and none of its values stops the reading. -/
theorem Assembled.reads_back (h : d.Assembled) (hc : d.freeze = .ok c) :
    (ofTable c.toTable none false).diagnostics = [] ∧
      read c.toTable none false = .ok (ofTable c.toTable none false) ∧
      (ofTable c.toTable none false).freeze =
      .ok { c with files := [], diagnostics := c.thaw.notes } := by
  obtain ⟨hworded, rfl⟩ := freeze_eq_ok_iff.mp hc
  have hsettled := h.named.settled_filled
  refine ⟨?_, if_pos (Config.writable_toTable hsettled.people),
    hsettled.freeze_ofTable (writable_thaw_filled hworded) none⟩
  rw [Config.ofTable_toTable hsettled.people]

section Examples

def listed : Draft :=
  defaults.mergeWith (ofTable
    [("maxContributors".toList, .integer (-2)), ("spdxLicense".toList, .text "MIT".toList),
      ("contributorSelection".toList, .text " Manual".toList),
      ("manualContributors".toList, .list [.table (Config.personTable .jane), .table []])] none
      true)

theorem reads_back_listed :
    listed.Assembled ∧ ∃ c c', listed.freeze = .ok c ∧
    (ofTable c.toTable none false).diagnostics = [] ∧
      (ofTable c.toTable none false).freeze = .ok c' ∧ c'.maxContributors = 0 ∧
      c'.selection = .manual ∧
      c'.manualContributors = [.jane] ∧
      c'.licenseUrl = "https://opensource.org/licenses/MIT".toList := by
  have hassembled : listed.Assembled := .merge .defaults (.table _ none true)
  have hc : listed.freeze = .ok listed.filled := freeze_of_small (by decide)
  obtain ⟨hsilent, -, hfreeze⟩ := hassembled.reads_back hc
  exact ⟨hassembled, _, _, hc, hsilent, hfreeze, by decide, by decide, by decide, by decide⟩

end Examples

end Draft
end Masthead
