import Masthead.Config.Discovery
import Masthead.Proofs.Config.Table

/-! The layers of a configuration. Of every field that value counts which stands in the highest
layer that sets it: what is set on top, the table of the file, the defaults. The license and the
address of the maintainer are filled in from elsewhere where that value is empty, whether it was set
or not. -/

namespace Masthead

/-! The highest layer that sets a field -/

/-- The value is in the highest layer that sets one; the layers stand from the highest on down. -/
inductive Highest {α : Type} (a : α) : List (Option α) → Prop
  | here {below : List (Option α)} : Highest a (some a :: below)
  | under {below : List (Option α)} : Highest a below → Highest a (none :: below)

section Highest
variable {α β : Type} {a : α} {layers : List (Option α)}

theorem highest_iff : Highest a layers ↔ layers.findSome? id = some a := by
  induction layers with
  | nil => exact ⟨nofun, nofun⟩
  | cons layer below ih =>
    cases layer with
    | none =>
      refine Iff.trans ⟨fun h => ?_, .under⟩ ih
      cases h with
      | under h => exact h
    | some b =>
      refine ⟨fun h => ?_, fun h => ?_⟩
      · cases h
        rfl
      · obtain rfl := Option.some.inj h
        exact .here

def Takes (field : β) (made : α → β) (layers : List (Option α)) : Prop :=
  ∃ a, Highest a layers ∧ field = made a

theorem takes_iff {field : β} {made : α → β} {top middle : Option α} {bottom : α} (d : α) :
    Takes field made [top, middle, some bottom] ↔
    field = made ((top <|> middle <|> some bottom).getD d) := by
  have hhighest (a : α) : Highest a [top, middle, some bottom] ↔
      (top <|> middle <|> some bottom).getD d = a := by
    rw [highest_iff]
    cases top <;> cases middle <;> simp
  simp only [Takes, hhighest, exists_eq_left']

end Highest

namespace Config

/-- Every field is made of the value in the highest layer that sets it. -/
structure Layered (top : Draft) (t : Table) (license email : Option Text) (c : Config) : Prop where
  width : Takes c.width id [top.width, setting Value.asInteger? t "width", some defaultWidth]
  separatorChar : Takes c.separatorChar (fun s => if s.isEmpty then defaultSeparatorChar else s)
    [top.separatorChar, setting Value.asWording? t "separator_char", some defaultSeparatorChar]
  commentPrefix : Takes c.commentPrefix id
    [top.commentPrefix, setting Value.asWording? t "comment_prefix", some defaultCommentPrefix]
  nameColumn : Takes c.nameColumn id
    [top.nameColumn, setting Value.asInteger? t "name_column", some defaultNameColumn]
  emailColumn : Takes c.emailColumn id
    [top.emailColumn, setting Value.asInteger? t "email_column", some defaultEmailColumn]
  licenseUrlColumn : Takes c.licenseUrlColumn id
    [top.licenseUrlColumn, setting Value.asInteger? t "license_url_column",
      some defaultLicenseUrlColumn]
  maintainerColumn : Takes c.maintainerColumn id
    [top.maintainerColumn, setting Value.asInteger? t "maintainer_column",
      some defaultMaintainerColumn]
  spdxLicense : Takes c.spdxLicense (fun s => if s.isEmpty then license.getD [] else s)
    [top.spdxLicense, setting Value.asWording? t "spdx_license", some []]
  licenseUrl : Takes c.licenseUrl (fun s => if s.isEmpty then License.page c.spdxLicense else s)
    [top.licenseUrl, setting Value.asWording? t "license_url", some []]
  maintainerEmail : Takes c.maintainerEmail (fun s => if s.isEmpty then email.getD [] else s)
    [top.maintainerEmail, setting Value.asWording? t "maintainer_email", some []]
  maxContributors : Takes c.maxContributors Int.toNat
    [top.maxContributors, setting Value.asInteger? t "max_contributors",
      some (defaultMaxContributors : Int)]
  selection : Takes c.selection (fun s => (Selection.ofName? s).getD defaultSelection)
    [top.selection, setting Value.asWording? t "contributor_selection",
      some defaultSelection.name.toList]
  manualContributors : Takes c.manualContributors id
    [top.manualContributors, setting Value.asPeople? t "manual_contributors", some []]
  includes : Takes c.includes id [top.includes, setting Value.asTexts? t "include",
    some defaultIncludes]
  excludes : Takes c.excludes id [top.excludes, setting Value.asTexts? t "exclude",
    some defaultExcludes]

def tableOf (found : Option Found) : Table :=
  (found.map fun f => Draft.spelled (f.table.getD []) f.camelCase).getD []

def layerOf (found : Option Found) : Draft :=
  (found.map fun f => Draft.ofTable (f.table.getD []) (some f.path.text) f.camelCase).getD {}

theorem layerOf_eq (found : Option Found) :
    layerOf found =
      { width := setting Value.asInteger? (tableOf found) "width"
        separatorChar := setting Value.asWording? (tableOf found) "separator_char"
        commentPrefix := setting Value.asWording? (tableOf found) "comment_prefix"
        nameColumn := setting Value.asInteger? (tableOf found) "name_column"
        emailColumn := setting Value.asInteger? (tableOf found) "email_column"
        licenseUrlColumn := setting Value.asInteger? (tableOf found) "license_url_column"
        maintainerColumn := setting Value.asInteger? (tableOf found) "maintainer_column"
        spdxLicense := setting Value.asWording? (tableOf found) "spdx_license"
        licenseUrl := setting Value.asWording? (tableOf found) "license_url"
        maintainerEmail := setting Value.asWording? (tableOf found) "maintainer_email"
        maxContributors := setting Value.asInteger? (tableOf found) "max_contributors"
        selection := setting Value.asWording? (tableOf found) "contributor_selection"
        manualContributors := setting Value.asPeople? (tableOf found) "manual_contributors"
        includes := setting Value.asTexts? (tableOf found) "include"
        excludes := setting Value.asTexts? (tableOf found) "exclude"
        files := (found.map (·.path.text)).toList
        diagnostics := (layerOf found).diagnostics } := by
  cases found with
  | none => rfl
  | some f =>
    simp only [← integer_fst, ← text_fst, ← textList_fst, ← contributors_fst]
    rfl

section Layers
variable {found : Option Found} {overrides : Draft} {license email : Option Text} {c : Config}

def topmost (top middle : Option Text) : Text := (top <|> middle <|> some []).getD []

theorem orElse_eq_topmost (top middle : Option Text) :
    (top <|> middle <|> some []) = some (topmost top middle) := by
  cases top <;> cases middle <;> rfl

theorem highest_nil_iff (top middle : Option Text) :
    Highest [] [top, middle, some []] ↔ topmost top middle = [] := by
  rw [highest_iff]
  cases top <;> cases middle <;> simp [topmost]

def settled (found : Option Found) (overrides : Draft) (license email : Option Text) : Draft :=
  let spdx := topmost overrides.spdxLicense
    (setting Value.asWording? (tableOf found) "spdx_license")
  let maintainer := topmost overrides.maintainerEmail
    (setting Value.asWording? (tableOf found) "maintainer_email")
  { layers (layerOf found) overrides with
    spdxLicense := some (if spdx.isEmpty then license.getD [] else spdx)
    maintainerEmail := some (if maintainer.isEmpty then email.getD [] else maintainer) }

theorem eq_filled_iff :
    c = (settled found overrides license email).filled ↔
      Layered overrides (tableOf found) license email c ∧
        c.files = (found.map (·.path.text)).toList ++ overrides.files ∧
        c.diagnostics = (layerOf found).diagnostics ++ overrides.diagnostics ++
          (layers (layerOf found) overrides).notes := by
  rw [settled, layerOf_eq]
  constructor
  · rintro rfl
    exact ⟨{
      width := (takes_iff defaultWidth).mpr rfl
      separatorChar := (takes_iff defaultSeparatorChar).mpr rfl
      commentPrefix := (takes_iff defaultCommentPrefix).mpr rfl
      nameColumn := (takes_iff defaultNameColumn).mpr rfl
      emailColumn := (takes_iff defaultEmailColumn).mpr rfl
      licenseUrlColumn := (takes_iff defaultLicenseUrlColumn).mpr rfl
      maintainerColumn := (takes_iff defaultMaintainerColumn).mpr rfl
      spdxLicense := (takes_iff []).mpr rfl
      licenseUrl := (takes_iff []).mpr rfl
      maintainerEmail := (takes_iff []).mpr rfl
      maxContributors := (takes_iff (defaultMaxContributors : Int)).mpr rfl
      selection := (takes_iff defaultSelection.name.toList).mpr rfl
      manualContributors := (takes_iff []).mpr rfl
      includes := (takes_iff defaultIncludes).mpr rfl
      excludes := (takes_iff defaultExcludes).mpr rfl }, rfl, rfl⟩
  · rintro ⟨h, hfiles, hdiagnostics⟩
    obtain ⟨⟩ := c
    rw [Draft.filled, mk.injEq]
    have hfill := (takes_iff defaultSeparatorChar).mp h.separatorChar
    have hlicense := (takes_iff []).mp h.spdxLicense
    have hpage := (takes_iff []).mp h.licenseUrl
    have hemail := (takes_iff []).mp h.maintainerEmail
    have hselection := (takes_iff defaultSelection.name.toList).mp h.selection
    exact ⟨(takes_iff defaultWidth).mp h.width, hfill,
      (takes_iff defaultCommentPrefix).mp h.commentPrefix,
      (takes_iff defaultNameColumn).mp h.nameColumn,
      (takes_iff defaultEmailColumn).mp h.emailColumn,
      (takes_iff defaultLicenseUrlColumn).mp h.licenseUrlColumn,
      (takes_iff defaultMaintainerColumn).mp h.maintainerColumn, hlicense,
      hpage.trans (by rw [hlicense]; rfl), hemail,
      (takes_iff (defaultMaxContributors : Int)).mp h.maxContributors, hselection,
      (takes_iff []).mp h.manualContributors,
      (takes_iff defaultIncludes).mp h.includes, (takes_iff defaultExcludes).mp h.excludes, hfiles,
      hdiagnostics⟩

end Layers

end Config
end Masthead
