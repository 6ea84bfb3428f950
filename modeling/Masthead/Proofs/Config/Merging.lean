import Masthead.Proofs.Config.Freezing
import Masthead.Proofs.Config.Table

/-! Layers that are merged. How they are grouped makes no difference, an empty layer adds nothing,
and neither do the defaults below a draft that is frozen. Setting fields over the defaults comes to
laying a draft with these fields over them: a field that is left open again takes the default either
way, and a value that is set last reaches the configuration. -/

namespace Masthead

namespace Draft
variable {lower d d' : Draft}

theorem mergeWith_assoc (a b c : Draft) :
    (a.mergeWith b).mergeWith c = a.mergeWith (b.mergeWith c) := by
  simp only [mergeWith, Option.orElse_eq_orElse, Option.orElse_eq_or, Option.or_assoc,
    List.append_assoc]

theorem empty_mergeWith (d : Draft) : mergeWith {} d = d := by
  simp only [mergeWith, Option.orElse_eq_orElse, Option.orElse_eq_or, Option.or_none,
    List.nil_append]

theorem mergeWith_empty (d : Draft) : d.mergeWith {} = d := by
  simp only [mergeWith, Option.orElse_eq_orElse, Option.orElse_eq_or, Option.none_or,
    List.append_nil]

/-! The defaults below a draft -/

theorem getD_orElse_some {α : Type} (v : Option α) (a : α) : (v <|> some a).getD a = v.getD a := by
  cases v <;> rfl

theorem notes_congr (hwidth : d.widthValue = d'.widthValue)
    (hseparator : d.separatorValue = d'.separatorValue)
    (hcomment : d.commentPrefixValue = d'.commentPrefixValue)
    (hname : d.nameColumnValue = d'.nameColumnValue)
    (hmax : d.maxContributorsValue = d'.maxContributorsValue)
    (hselection : d.selectionValue = d'.selectionValue) :
    d.notes = d'.notes := by
  rw [notes_eq, notes_eq, widthNotes, widthNotes, separatorNotes, separatorNotes, columnNotes,
    columnNotes, maxContributorsNotes, maxContributorsNotes, selectionNotes, selectionNotes, hwidth,
    hseparator, hcomment, hname, hmax, hselection]

theorem worded_congr (hwidth : d.widthValue = d'.widthValue)
    (hcomment : d.commentPrefixValue = d'.commentPrefixValue)
    (hname : d.nameColumnValue = d'.nameColumnValue)
    (hmax : d.maxContributorsValue = d'.maxContributorsValue) : d.worded = d'.worded := by
  rw [worded_eq, worded_eq, hwidth, hcomment, hname, hmax]

theorem freeze_defaults_mergeWith (d : Draft) : (defaults.mergeWith d).freeze = d.freeze := by
  have hwidth : (defaults.mergeWith d).widthValue = d.widthValue := getD_orElse_some ..
  have hseparator : (defaults.mergeWith d).separatorValue = d.separatorValue := getD_orElse_some ..
  have hcomment : (defaults.mergeWith d).commentPrefixValue = d.commentPrefixValue :=
    getD_orElse_some ..
  have hname : (defaults.mergeWith d).nameColumnValue = d.nameColumnValue := getD_orElse_some ..
  have hmax : (defaults.mergeWith d).maxContributorsValue = d.maxContributorsValue :=
    getD_orElse_some ..
  have hselection : (defaults.mergeWith d).selectionValue = d.selectionValue := getD_orElse_some ..
  have hspdx : (defaults.mergeWith d).spdxValue = d.spdxValue := getD_orElse_some ..
  have hurl : (defaults.mergeWith d).licenseUrl.getD [] = d.licenseUrl.getD [] :=
    getD_orElse_some ..
  have hnotes := notes_congr hwidth hseparator hcomment hname hmax hselection
  have hfilled : (defaults.mergeWith d).filled = d.filled := by
    rw [filled, filled, Config.mk.injEq, hwidth, hseparator, hcomment, hname, hmax, hselection,
      hspdx, hurl, hnotes]
    exact ⟨rfl, rfl, rfl, rfl, getD_orElse_some .., getD_orElse_some ..,
      getD_orElse_some .., rfl, rfl, getD_orElse_some .., rfl, rfl, getD_orElse_some ..,
      getD_orElse_some .., getD_orElse_some .., rfl, rfl⟩
  rw [freeze, freeze, worded_congr hwidth hcomment hname hmax, hfilled]

/-! Fields that are set one by one -/

namespace Setting

def name : Setting → String
  | width _ => "width"
  | separatorChar _ => "separator_char"
  | commentPrefix _ => "comment_prefix"
  | nameColumn _ => "name_column"
  | emailColumn _ => "email_column"
  | licenseUrlColumn _ => "license_url_column"
  | maintainerColumn _ => "maintainer_column"
  | spdxLicense _ => "spdx_license"
  | licenseUrl _ => "license_url"
  | maintainerEmail _ => "maintainer_email"
  | maxContributors _ => "max_contributors"
  | selection _ => "contributor_selection"
  | manualContributors _ => "manual_contributors"
  | includes _ => "include"
  | excludes _ => "exclude"

theorem name_mem (s : Setting) : s.name.toList ∈ Config.knownKeys := by
  cases s <;>
    simp only [name, Config.knownKeys, Config.integerKeys, Config.textKeys, Config.listKeys,
      List.cons_append, List.nil_append, List.mem_cons, true_or, or_true]

def above (lower : Draft) : Setting → Setting
  | width v => width (v <|> lower.width)
  | separatorChar v => separatorChar (v <|> lower.separatorChar)
  | commentPrefix v => commentPrefix (v <|> lower.commentPrefix)
  | nameColumn v => nameColumn (v <|> lower.nameColumn)
  | emailColumn v => emailColumn (v <|> lower.emailColumn)
  | licenseUrlColumn v => licenseUrlColumn (v <|> lower.licenseUrlColumn)
  | maintainerColumn v => maintainerColumn (v <|> lower.maintainerColumn)
  | spdxLicense v => spdxLicense (v <|> lower.spdxLicense)
  | licenseUrl v => licenseUrl (v <|> lower.licenseUrl)
  | maintainerEmail v => maintainerEmail (v <|> lower.maintainerEmail)
  | maxContributors v => maxContributors (v <|> lower.maxContributors)
  | selection v => selection (v <|> lower.selection)
  | manualContributors v => manualContributors (v <|> lower.manualContributors)
  | includes v => includes (v <|> lower.includes)
  | excludes v => excludes (v <|> lower.excludes)

def ofDraft (d : Draft) : Setting → Setting
  | width _ => width d.width
  | separatorChar _ => separatorChar d.separatorChar
  | commentPrefix _ => commentPrefix d.commentPrefix
  | nameColumn _ => nameColumn d.nameColumn
  | emailColumn _ => emailColumn d.emailColumn
  | licenseUrlColumn _ => licenseUrlColumn d.licenseUrlColumn
  | maintainerColumn _ => maintainerColumn d.maintainerColumn
  | spdxLicense _ => spdxLicense d.spdxLicense
  | licenseUrl _ => licenseUrl d.licenseUrl
  | maintainerEmail _ => maintainerEmail d.maintainerEmail
  | maxContributors _ => maxContributors d.maxContributors
  | selection _ => selection d.selection
  | manualContributors _ => manualContributors d.manualContributors
  | includes _ => includes d.includes
  | excludes _ => excludes d.excludes

/-- The value is in its field of the configuration, or what it is replaced by: the default where it
is left open or where there is nothing to fill a separator with, the page of the license, no
contributors below none. -/
def Reaches (c : Config) : Setting → Prop
  | width v => c.width = v.getD Config.defaultWidth
  | separatorChar v =>
    c.separatorChar = if v.getD [] = [] then Config.defaultSeparatorChar else v.getD []
  | commentPrefix v => c.commentPrefix = v.getD Config.defaultCommentPrefix
  | nameColumn v => c.nameColumn = v.getD Config.defaultNameColumn
  | emailColumn v => c.emailColumn = v.getD Config.defaultEmailColumn
  | licenseUrlColumn v => c.licenseUrlColumn = v.getD Config.defaultLicenseUrlColumn
  | maintainerColumn v => c.maintainerColumn = v.getD Config.defaultMaintainerColumn
  | spdxLicense v => c.spdxLicense = v.getD []
  | licenseUrl v => c.licenseUrl = if v.getD [] = [] then License.page c.spdxLicense else v.getD []
  | maintainerEmail v => c.maintainerEmail = v.getD []
  | maxContributors v => c.maxContributors = (v.getD (Config.defaultMaxContributors : Int)).toNat
  | selection v => c.selection = ((v.bind Selection.ofName?).getD Config.defaultSelection)
  | manualContributors v => c.manualContributors = v.getD []
  | includes v => c.includes = v.getD Config.defaultIncludes
  | excludes v => c.excludes = v.getD Config.defaultExcludes

/-- No later setting is about the same field. -/
def LastOf (s : Setting) (settings : List Setting) : Prop :=
  ∃ before after, settings = before ++ s :: after ∧ ∀ s' ∈ after, s'.name ≠ s.name

end Setting

theorem mergeWith_set (lower d : Draft) (s : Setting) :
    lower.mergeWith (d.set s) = (lower.mergeWith d).set (s.above lower) := by
  cases s <;> rfl

theorem mergeWith_setAll (h : lower.mergeWith d = lower.mergeWith d') (settings : List Setting) :
    lower.mergeWith (d.setAll settings) = lower.mergeWith (d'.setAll settings) := by
  induction settings generalizing d d' with
  | nil => exact h
  | cons s settings ih =>
    refine ih ?_
    rw [mergeWith_set, mergeWith_set, h]

theorem Setting.ofDraft_set (d : Draft) (s : Setting) : s.ofDraft (d.set s) = s := by
  cases s <;> rfl

theorem Setting.ofDraft_set_of_name_ne (d : Draft) {s s' : Setting} (h : s'.name ≠ s.name) :
    s.ofDraft (d.set s') = s.ofDraft d := by
  cases s <;> cases s' <;> first | rfl | exact absurd rfl h

theorem Setting.LastOf.ofDraft_setAll {s : Setting} {settings : List Setting}
    (h : s.LastOf settings) (d : Draft) :
    s.ofDraft (d.setAll settings) = s := by
  obtain ⟨before, after, rfl, hafter⟩ := h
  rw [setAll, List.foldl_append, List.foldl_cons]
  generalize before.foldl set d = lower
  have hkept : ∀ d, s.ofDraft (after.foldl set d) = s.ofDraft d := by
    induction after with
    | nil => exact fun d => rfl
    | cons s' after ih =>
      rw [List.forall_mem_cons] at hafter
      exact fun d => (ih hafter.2 _).trans (ofDraft_set_of_name_ne d hafter.1)
  rw [hkept, ofDraft_set]

theorem Setting.reaches_filled {s : Setting} (h : s.ofDraft d = s) : s.Reaches d.filled := by
  cases s <;> rw [ofDraft] at h <;> cases h
  case separatorChar =>
    rw [Reaches, filled, separatorValue]
    cases d.separatorChar <;> simp [Config.defaultSeparatorChar]
  case licenseUrl =>
    simp [Reaches, filled]
  case selection =>
    rw [Reaches, filled, selectionValue]
    cases d.selection <;> rfl
  all_goals rfl

theorem freeze_setAll_defaults (settings : List Setting) :
    (defaults.setAll settings).freeze = (defaults.mergeWith (setAll {} settings)).freeze := by
  -- the defaults are the same over themselves as nothing is
  have hsame : defaults.mergeWith defaults = defaults.mergeWith {} := rfl
  rw [← freeze_defaults_mergeWith (defaults.setAll settings), mergeWith_setAll hsame]

theorem resolveNamed_eq (settings : List Setting) :
    Config.resolveNamed (settings.map (·.name.toList)) settings =
    (Config.resolve settings).mapError .number := by
  have hknown : settings.map (·.name.toList) ⊆ Config.knownKeys := by
    intro name hname
    obtain ⟨s, -, rfl⟩ := List.mem_map.mp hname
    exact s.name_mem
  rw [Config.resolveNamed, Config.unknownKeys_eq_nil hknown]
  rfl

/-- Merging is associative, and an empty draft on either side changes nothing; files and remarks are
part of this. Frozen, a draft is the same with the defaults below it and without them. Fields that
are set by name give the configuration of a draft with these fields over the defaults, and of every
field the value that was set last. -/
theorem layers_merge (a b c : Draft) (settings : List Setting) :
    (a.mergeWith b).mergeWith c = a.mergeWith (b.mergeWith c) ∧
      mergeWith {} a = a ∧ a.mergeWith {} = a ∧
      (defaults.mergeWith a).freeze = a.freeze ∧
      Config.resolveNamed (settings.map (·.name.toList)) settings =
        (defaults.mergeWith (setAll {} settings)).freeze.mapError .number ∧
      ∀ (s : Setting) (c : Config), s.LastOf settings →
        Config.resolveNamed (settings.map (·.name.toList)) settings = .ok c →
        s.Reaches c := by
  refine ⟨mergeWith_assoc a b c, empty_mergeWith a, mergeWith_empty a,
    freeze_defaults_mergeWith a, ?_, fun s c hlast hc => ?_⟩
  · rw [resolveNamed_eq, Config.resolve, freeze_setAll_defaults]
  · rw [resolveNamed_eq, Config.resolve] at hc
    cases hfreeze : (defaults.setAll settings).freeze with
    | error e =>
      rw [hfreeze] at hc
      cases hc
    | ok c' =>
      obtain rfl := eq_filled hfreeze
      rw [hfreeze] at hc
      obtain rfl := Except.ok.inj hc
      exact Setting.reaches_filled (hlast.ofDraft_setAll defaults)

section Examples

def chosen : List Setting :=
  [.width none, .licenseUrl (some []), .maxContributors (some (-1)),
    .spdxLicense (some "MIT".toList)]

theorem layers_merge_chosen :
    ∃ c, Config.resolveNamed (chosen.map (·.name.toList)) chosen = .ok c ∧ c.width = 100 ∧
      c.spdxLicense = "MIT".toList ∧ c.licenseUrl = License.page "MIT".toList ∧
      c.maxContributors = 0 := by
  have hresolve : Config.resolveNamed (chosen.map (·.name.toList)) chosen =
      .ok (defaults.setAll chosen).filled := by
    rw [resolveNamed_eq, Config.resolve, freeze_of_small (by decide)]
    rfl
  have hreaches := fun s hlast => (layers_merge {} {} {} chosen).2.2.2.2.2 s _ hlast hresolve
  exact ⟨_, hresolve, hreaches (.width none) ⟨[], chosen.drop 1, rfl, by decide⟩,
    hreaches (.spdxLicense (some "MIT".toList)) ⟨chosen.take 3, [], rfl, by decide⟩,
    hreaches (.licenseUrl (some [])) ⟨chosen.take 1, chosen.drop 2, rfl, by decide⟩,
    hreaches (.maxContributors (some (-1))) ⟨chosen.take 2, chosen.drop 3, rfl, by decide⟩⟩

end Examples

end Draft
end Masthead
