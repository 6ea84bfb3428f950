import Masthead.Config.Starter
import Masthead.Proofs.Config.Precedence
import Masthead.Proofs.Toml

/-! The configuration that a project starts with. It says nothing but what counts without it. -/

namespace Masthead.Config
variable {license : Option Text} {t t' : Table}

/-! Tables that answer alike -/

theorem keys_subset_of_get?_eq (hsame : ∀ key, t.get? key = t'.get? key) : t.keys ⊆ t'.keys := by
  intro key hkey
  rw [Table.mem_keys_iff, hsame] at hkey
  exact Table.mem_keys_iff.mpr hkey

theorem given?_congr (hsame : ∀ key, t.get? key = t'.get? key) (key : Text) :
    given? t key = given? t' key := by
  rw [given?, given?, hsame]

theorem ofTable_congr (hsame : ∀ key, t.get? key = t'.get? key) (hkeys : t'.keys ⊆ knownKeys)
    (file : Option Text) :
    Draft.ofTable t file false = Draft.ofTable t' file false := by
  have hnotes : unknownNotes t (file.getD "<mapping>") =
      unknownNotes t' (file.getD "<mapping>") := by
    rw [unknownNotes_eq_nil hkeys, unknownNotes_eq_nil fun _ hkey =>
      hkeys (keys_subset_of_get?_eq hsame hkey)]
  have hspelled (t : Table) : Draft.spelled t false = t := rfl
  simp only [Draft.ofTable, hspelled, integer, text, textList, contributors, tableList,
    given?_congr hsame, hnotes]

theorem worded_congr (hsame : ∀ key, t.get? key = t'.get? key) : worded t = worded t' := by
  have hrest : @worded.rest t = worded.rest t' := by
    funext values key
    rw [worded.rest, worded.rest, given?_congr hsame]
  rw [worded, worded, hrest]

theorem projectLicense_congr (h : t.get? "project".toList = t'.get? "project".toList) :
    projectLicense t = projectLicense t' := by
  simp only [projectLicense, Table.follow, h]

theorem projectLicense_alike (h : t.Alike t') : projectLicense t = projectLicense t' := by
  have hproject : (t.follow ["project".toList]).Alike (t'.follow ["project".toList]) := h.follow _
  generalize hs : t.follow ["project".toList] = s at hproject
  generalize hs' : t'.follow ["project".toList] = s' at hproject
  rw [projectLicense, projectLicense, hs, hs']
  by_cases hlicense : ∃ inner, s'.get? "license".toList = some (.table inner)
  · obtain ⟨inner, hinner⟩ := hlicense
    obtain ⟨u, hu, hsame⟩ := hproject.exists_table hinner
    rw [hu, hinner]
    dsimp only
    by_cases htext : ∃ deep, Table.get? inner "text".toList = some (.table deep)
    · obtain ⟨deep, hdeep⟩ := htext
      obtain ⟨v, hv, -⟩ := hsame.exists_table hdeep
      rw [hv, hdeep]
    · rw [hsame.get?_eq fun deep hdeep => htext ⟨deep, hdeep⟩]
  · rw [hproject.get?_eq fun inner hinner => hlicense ⟨inner, hinner⟩]

/-! What the starting values come to -/

def known? (license : Option Text) : Option Text := license.filter (!·.isEmpty)

def startingTable (license : Option Text) : Table :=
  [("width".toList, .integer defaultWidth),
    ("max_contributors".toList, .integer defaultMaxContributors),
    ("contributor_selection".toList, .text defaultSelection.name.toList)] ++
  match license with
  | some (c :: rest) =>
    [("spdx_license".toList, .text (c :: rest)),
      ("license_url".toList, .text (License.page (c :: rest)))]
  | _ => []

theorem table?_starter (license : Option Text) :
    Toml.table? (starter (license.map Points.ofText)) = some (startingTable license) := by
  rcases license with _ | _ | ⟨c, rest⟩
  · rfl
  · rfl
  · have htext : Points.text? (.char c :: Points.ofText rest) = some (c :: rest) :=
      Points.text?_ofText (c :: rest)
    have hpage : License.pageOf (.char c :: Points.ofText rest) =
        Points.ofText (License.page (c :: rest)) := by
      rw [License.pageOf, htext]
    have hvalues : starter (some (Points.ofText (c :: rest))) =
        starter none ++ [("spdx_license".toList, .points (.char c :: Points.ofText rest)),
          ("license_url".toList, .points (Points.ofText (License.page (c :: rest))))] := by
      rw [← hpage]
      rfl
    rw [Option.map_some, hvalues]
    simp [starter, startingTable, Toml.table?, Toml.Content.value?, htext, Points.text?_ofText]

theorem nodup_starter (license : Option Points) : ((starter license).map (·.1)).Nodup := by
  rcases license with _ | _ | ⟨c, rest⟩
  · decide
  · decide
  · have hkeys : (starter (some (c :: rest))).map (·.1) =
        ["width".toList, "max_contributors".toList, "contributor_selection".toList,
          "spdx_license".toList, "license_url".toList] := rfl
    rw [hkeys]
    decide

theorem keys_startingTable (license : Option Text) : (startingTable license).keys ⊆ knownKeys := by
  rcases license with _ | _ | ⟨c, rest⟩
  · decide
  · decide
  · have hkeys : (startingTable (some (c :: rest))).keys =
        ["width".toList, "max_contributors".toList, "contributor_selection".toList,
          "spdx_license".toList, "license_url".toList] := rfl
    rw [hkeys]
    decide

theorem get?_startingTable_ne_table (license : Option Text) (key : Text) (inner : Table) :
    (startingTable license).get? key ≠ some (.table inner) := by
  intro h
  rw [Table.get?, Option.map_eq_some_iff] at h
  obtain ⟨e, he, hvalue⟩ := h
  have hmem := List.mem_of_find?_eq_some he
  rcases license with _ | _ | ⟨c, rest⟩ <;>
  · simp only [startingTable, List.append_nil, List.cons_append, List.nil_append, List.mem_cons,
      List.not_mem_nil, or_false] at hmem
    rcases hmem with rfl | rfl | rfl | rfl | rfl <;> cases hvalue

section Written
variable {path : Path} {own : Option Points}
  (hsame : ∀ key, t.get? key = (startingTable license).get? key)
include hsame

theorem layerOf_starting :
    layerOf (some ⟨path, some t, false, own⟩) =
      { width := some defaultWidth
        maxContributors := some (defaultMaxContributors : Int)
        selection := some defaultSelection.name.toList
        spdxLicense := known? license
        licenseUrl := (known? license).map License.page
        files := [path.text] } := by
  have htable : layerOf (some ⟨path, some t, false, own⟩) =
      layerOf (some ⟨path, some (startingTable license), false, own⟩) :=
    ofTable_congr hsame (keys_startingTable license) _
  have hnotes := unknownNotes_eq_nil (keys_startingTable license) path.text
  have hdiagnostics :
      (layerOf (some ⟨path, some (startingTable license), false, own⟩)).diagnostics = [] := by
    rw [layerOf, Option.map_some, Option.getD_some, Draft.ofTable]
    dsimp only [Draft.spelled, Option.getD_some]
    rw [if_neg (by decide), hnotes]
    rcases license with _ | _ | ⟨c, rest⟩ <;> cbv
  rw [htable, layerOf_eq, hdiagnostics]
  rcases license with _ | _ | ⟨c, rest⟩ <;> cbv

theorem writable_starting : (worded t).all Value.isWritable = true := by
  rw [worded_congr hsame]
  rcases license with _ | _ | ⟨c, rest⟩ <;> rfl

theorem setting_starting : setting Value.asWording? t "spdx_license" = known? license := by
  rw [setting, given?_congr hsame]
  rcases license with _ | _ | ⟨c, rest⟩ <;> cbv

theorem settled_starting {found email : Option Text} (hfound : known? license = none →
    found.getD [] = []) :
    (settled (some ⟨path, some t, false, own⟩) {} found email).filled =
      { (settled none {} license email).filled with files := [path.text] } := by
  have htable : tableOf (some ⟨path, some t, false, own⟩) = t := rfl
  have hemail : setting Value.asWording? t "maintainer_email" = none := by
    rw [setting, given?_congr hsame]
    rcases license with _ | _ | ⟨c, rest⟩ <;> cbv
  rw [settled, settled, htable, setting_starting hsame, hemail, layerOf_starting hsame]
  rcases license with _ | _ | ⟨c, rest⟩
  · rw [hfound rfl]
    rfl
  · rw [hfound rfl]
    rfl
  · rw [Draft.filled, Draft.filled, mk.injEq]
    exact ⟨rfl, rfl, rfl, rfl, rfl, rfl, rfl, rfl, ite_self _, rfl, rfl, rfl, rfl, rfl,
      rfl, rfl, rfl⟩

end Written

end Masthead.Config
