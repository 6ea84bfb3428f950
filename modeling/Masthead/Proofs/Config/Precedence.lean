import Masthead.Backend.Limits
import Masthead.Backend.Toml.Library
import Masthead.Proofs.Config.Freezing
import Masthead.Proofs.Config.Layers
import Masthead.Proofs.Config.Loading
import Masthead.Proofs.Text.Points
import Masthead.Proofs.Workspace.Looking
import Mathlib

/-! What loading a configuration comes to. A file is looked for, and the license and the address
that are not given are looked up; of the layers, the highest one counts. -/

namespace Masthead.Config

/-! Remarks -/

section Remarks
variable {d : Draft} {c : Config}

theorem logNotes_eq (notes : List Diagnostic) (w : Workspace) :
    ∃ errors, logNotes notes w = (.ok (), { w with errors }) := by
  rw [logNotes, List.forM_eq_forM]
  induction notes generalizing w with
  | nil => exact ⟨w.errors, rfl⟩
  | cons d notes ih =>
    obtain ⟨errors, hlog⟩ := Act.log_eq (if d.level = .info then .info else .warning) d.message w
    obtain ⟨errors', hrest⟩ := ih { w with errors }
    exact ⟨errors', by rw [List.forM_cons, bind_of_ok _ hlog, hrest]⟩

def logRemark (remark : List Int × List Diagnostic) : Act Unit :=
  if remark.1.all Text.isWritable then logNotes remark.2 else throw (.number .unwritable)

/-- Remarks are logged up to the first one with too long a number. -/
theorem forM_logRemark_eq (remarks : List (List Int × List Diagnostic)) (w : Workspace) :
    ∃ errors, remarks.forM logRemark w =
      (if (remarks.flatMap (·.1)).all Text.isWritable then .ok () else .error (.number .unwritable),
        { w with errors }) := by
  rw [List.forM_eq_forM]
  induction remarks generalizing w with
  | nil => exact ⟨w.errors, rfl⟩
  | cons remark remarks ih =>
    rw [List.forM_cons, List.flatMap_cons, List.all_append, logRemark]
    by_cases hnumbers : remark.1.all Text.isWritable = true
    · obtain ⟨errors, hnotes⟩ := logNotes_eq remark.2 w
      obtain ⟨errors', hrest⟩ := ih { w with errors }
      rw [if_pos hnumbers, hnumbers, Bool.true_and]
      exact ⟨errors', (bind_of_ok _ hnotes).trans hrest⟩
    · rw [if_neg hnumbers, eq_false_of_ne_true hnumbers, Bool.false_and]
      exact ⟨w.errors, rfl⟩

theorem freeze_fst (d : Draft) (w : Workspace) : (freeze d w).1 = d.freeze.mapError .number := by
  obtain ⟨errors, hremarks⟩ := forM_logRemark_eq d.remarks w
  change ((d.remarks.forM logRemark >>= fun _ => pure d.filled) w).1 = _
  rw [bind_apply, hremarks, Draft.freeze, Draft.worded]
  split_ifs <;> rfl

theorem freeze_fst_eq_ok {w : Workspace} :
    (freeze d w).1 = .ok c ↔ d.worded.all Text.isWritable = true ∧ c = d.filled := by
  rw [freeze_fst, ← Draft.freeze_eq_ok_iff]
  cases d.freeze <;> simp [Except.mapError]

end Remarks

/-! What is found in the surroundings -/

section Surroundings
variable [Limits] [Toml.Library]

/-- Looks for the table of a configuration: in the file at `path`, or from a directory on. -/
def source (path : Option Path) (base : Path) : Act (Option Found) :=
  match path with
  | some p => read p true
  | none => discover base

def home (found : Option Found) (base : Path) : Path := (found.map (·.path.parent)).getD base

/-- The license that the project declares, in the same file or in one nearby. -/
def declared (found : Option Found) (base : Path) : Act (Option Points) :=
  match found.bind (·.license) with
  | some license => pure (some license)
  | none => detectLicense (home found base)

theorem looks_source (path : Option Path) (base : Path) : Act.Looks (source path base) := by
  cases path with
  | none => exact looks_discover base
  | some p => exact looks_read p true

theorem looks_declared (found : Option Found) (base : Path) : Act.Looks (declared found base) := by
  rw [declared]
  split
  · exact Act.looks_compositional.pure _
  · exact looks_detectLicense _

def fillLicense (found : Option Found) (base : Path) (d : Draft) : Act Draft :=
  if isOpen d.spdxLicense then do
    match ← declared found base with
    | some license => withLicense d license
    | none => pure d
  else pure d

end Surroundings

def address (usesGit : Bool) (directory : Path) : Act (Option Text) :=
  if usesGit then Git.setting "user.email" directory else pure none

theorem address_said (usesGit : Bool) (directory : Path) (w : Workspace) (errors : List Log.Entry) :
    (address usesGit directory { w with errors }).1 = (address usesGit directory w).1 := by
  cases usesGit with
  | false => rfl
  | true => exact (Git.setting_fst _ _ { w with errors }).trans (Git.setting_fst _ _ w).symm

theorem exists_address (usesGit : Bool) (directory : Path) (w : Workspace) :
    ∃ email, (address usesGit directory w).1 = .ok email := by
  cases usesGit with
  | false => exact ⟨none, rfl⟩
  | true => exact ⟨_, Git.setting_fst _ _ _⟩

/-! Loading, step by step -/

def fileLayer : Option Found → Act Draft
  | some f => f.draft
  | none => pure {}

def fillEmail (usesGit : Bool) (directory : Path) (d : Draft) : Act Draft :=
  if isOpen d.maintainerEmail && usesGit then do
    match ← Git.setting "user.email" directory with
    | some (c :: email) => pure { d with maintainerEmail := some (c :: email) }
    | _ => pure d
  else pure d

theorem load_eq [Limits] [Toml.Library] (path : Option Path) (start : Path) (overrides : Draft)
    (usesGit : Bool) :
    load path start overrides usesGit =
      Act.resolve start >>= fun base => source path base >>= fun found => fileLayer found >>=
      fun file =>
        logNotes file.diagnostics >>= fun _ => fillLicense found base (layers file overrides) >>=
          fun d =>
        fillEmail usesGit (home found base) d >>= freeze := by
  rw [load]
  refine bind_congr fun base => ?_
  -- what follows a branch is shared by both, so the steps are named from the last one on
  extract_lets ending search
  have hsearch (found : Option Found) :
      search found = fileLayer found >>= fun file => logNotes file.diagnostics >>= fun _ =>
        fillLicense found base (layers file overrides) >>= fun d =>
        fillEmail usesGit (home found base) d >>= freeze := by
    unfold search
    extract_lets directory email layered
    have hemail (d : Draft) : email d = fillEmail usesGit directory d >>= freeze := by
      unfold email fillEmail
      split_ifs
      · rw [bind_assoc]
        refine bind_congr fun address => ?_
        rcases address with _ | _ | ⟨c, address⟩ <;> rfl
      · rfl
    have hlayered (file : Draft) : layered file = logNotes file.diagnostics >>= fun _ =>
        fillLicense found base (layers file overrides) >>= fun d => fillEmail usesGit directory
          d >>= freeze := by
      unfold layered
      refine bind_congr fun _ => ?_
      simp only [← hemail]
      rw [fillLicense, declared]
      split_ifs
      · cases found.bind (·.license) with
        | some license => rfl
        | none =>
          cases found <;>
          · rw [bind_assoc]
            refine bind_congr fun license => ?_
            cases license <;> rfl
      · rfl
    have hhome : home found base = directory := by cases found <;> rfl
    rw [hhome, ← funext hlayered]
    cases found <;> rfl
  cases path with
  | none => exact bind_congr hsearch
  | some p => exact bind_congr hsearch

/-! What comes of the steps -/

section Steps
variable {found : Option Found} {base directory : Path} {usesGit : Bool} {d d' : Draft}
  {w : Workspace} {s : Text} {e : Fault}

theorem looks_fileLayer (found : Option Found) : Act.Looks (fileLayer found) := by
  cases found with
  | none => exact Act.looks_compositional.pure _
  | some f => exact looks_draft f

theorem fileLayer_fst_eq_ok {file : Draft} :
    (fileLayer found w).1 = .ok file ↔
      found.all (·.table.isSome) = true ∧ (worded (tableOf found)).all Value.isWritable = true ∧
        file = layerOf found := by
  cases found with
  | none =>
    refine pure_fst_eq_ok.trans ?_
    rw [and_iff_right (by rfl), and_iff_right (by rfl)]
    exact Iff.rfl
  | some f =>
    obtain ⟨path, table, camelCase, license⟩ := f
    cases table with
    | none => exact iff_of_false nofun nofun
    | some t =>
      change (Act.ofExcept .number (Draft.read t (some path.text) camelCase) w).1 = _ ↔
        true = true ∧ (worded (Draft.spelled t camelCase)).all Value.isWritable = true ∧ _
      rw [Draft.read, and_iff_right rfl]
      split_ifs with hwritable
      · rw [and_iff_right hwritable]
        exact pure_fst_eq_ok
      · exact iff_of_false nofun fun h => hwritable h.1

theorem fileLayer_fst_eq_error :
    (fileLayer found w).1 = .error e ↔
      found.all (·.table.isSome) = false ∧ e = .unpaired ∨
        found.all (·.table.isSome) = true ∧ (worded (tableOf found)).all Value.isWritable = false ∧
          e = .number .unwritable := by
  cases found with
  | none =>
    refine iff_of_false nofun ?_
    rintro (⟨hhalf, -⟩ | ⟨-, hlong, -⟩)
    · cases hhalf
    · cases hlong
  | some f =>
    obtain ⟨path, table, camelCase, license⟩ := f
    cases table with
    | none => exact Act.throw_fst_eq_error.trans (by simp)
    | some t =>
      change (Act.ofExcept .number (Draft.read t (some path.text) camelCase) w).1 = _ ↔ _
      rw [Act.ofExcept_fst_eq_error, Draft.read]
      simp only [Option.all_some, Option.isSome_some, Bool.true_eq_false, false_and,
        false_or, true_and]
      change _ ↔ (worded (Draft.spelled t camelCase)).all Value.isWritable = false ∧ _
      split_ifs with hwritable
      · simp [hwritable]
      · simp [hwritable, eq_comm]

theorem withLicense_fst_eq_ok {license : Points} :
    (withLicense d license w).1 = .ok d' ↔
      ∃ t, license = .ofText t ∧ d' = { d with spdxLicense := some t } := by
  rw [withLicense]
  cases hlicense : license.text? with
  | none =>
    refine iff_of_false (by intro h; cases h) ?_
    rintro ⟨t, rfl, -⟩
    rw [Points.text?_ofText] at hlicense
    cases hlicense
  | some t =>
    obtain rfl := Points.text?_eq_some_iff.mp hlicense
    refine pure_fst_eq_ok.trans ⟨fun h => ⟨t, rfl, h⟩, ?_⟩
    rintro ⟨t', ht, rfl⟩
    rw [ht, Points.text?_ofText] at hlicense
    rw [Option.some.inj hlicense]

theorem looks_fillLicense [Limits] [Toml.Library] (found : Option Found) (base : Path) (d : Draft) :
    Act.Looks (fillLicense found base d) := by
  rw [fillLicense]
  split_ifs
  · refine (looks_declared found base).bind fun license => ?_
    cases license with
    | none => exact Act.looks_compositional.pure _
    | some license => exact looks_withLicense d license
  · exact Act.looks_compositional.pure _

theorem fillLicense_fst_eq_ok [Limits] [Toml.Library] (hd : d.spdxLicense = some s) :
    (fillLicense found base d w).1 = .ok d' ↔
      ∃ license : Option Text, (s = [] → (declared found base w).1 =
        .ok (license.map Points.ofText)) ∧
        d' = { d with spdxLicense := some (if s.isEmpty then license.getD [] else s) } := by
  have hsame : { d with spdxLicense := some s } = d := by rw [← hd]
  rw [fillLicense, hd]
  cases s with
  | nil =>
    rw [if_pos (by rfl), (looks_declared found base).bind_fst_eq_ok]
    simp only [List.isEmpty_nil, if_true, forall_const]
    constructor
    · rintro ⟨_ | license, hdeclared, h⟩
      · exact ⟨none, hdeclared, by rw [pure_fst_eq_ok.mp h, Option.getD_none, hsame]⟩
      · obtain ⟨t, rfl, rfl⟩ := withLicense_fst_eq_ok.mp h
        exact ⟨some t, hdeclared, rfl⟩
    · rintro ⟨_ | t, hdeclared, rfl⟩
      · exact ⟨none, hdeclared, pure_fst_eq_ok.mpr (by rw [Option.getD_none, hsame])⟩
      · exact ⟨some (.ofText t), hdeclared, withLicense_fst_eq_ok.mpr ⟨t, rfl, rfl⟩⟩
  | cons c s =>
    rw [if_neg (by simp [isOpen]), pure_fst_eq_ok]
    refine ⟨fun h => ⟨none, nofun, h.trans hsame.symm⟩, ?_⟩
    rintro ⟨_, -, rfl⟩
    exact hsame

theorem fillEmail_fst_eq_ok (hd : d.maintainerEmail = some s) :
    (fillEmail usesGit directory d w).1 = .ok d' ↔
      ∃ email, (address usesGit directory w).1 = .ok email ∧
        d' = { d with maintainerEmail := some (if s.isEmpty then email.getD [] else s) } := by
  have hsame : { d with maintainerEmail := some s } = d := by rw [← hd]
  rw [fillEmail, hd]
  cases s with
  | nil =>
    cases usesGit with
    | false =>
      rw [if_neg (by simp), pure_fst_eq_ok]
      simp [address, pure_fst_eq_ok, hsame]
    | true =>
      rw [if_pos (by rfl), bind_fst_eq_ok]
      refine exists_congr fun email => and_congr Iff.rfl ?_
      simp only [List.isEmpty_nil, if_true]
      rcases email with _ | _ | ⟨c, email⟩
      · exact pure_fst_eq_ok.trans (by rw [Option.getD_none, hsame])
      · exact pure_fst_eq_ok.trans (by rw [Option.getD_some, hsame])
      · exact pure_fst_eq_ok
  | cons c s =>
    obtain ⟨email, hemail⟩ := exists_address usesGit directory w
    rw [if_neg (by simp [isOpen]), pure_fst_eq_ok]
    simp [hsame, hemail]

end Steps

section Loaded
variable [Limits] [Toml.Library] {found : Option Found} {overrides : Draft} {c : Config}

theorem fill_fst_eq_ok {base : Path} {usesGit : Bool} {w : Workspace} :
    ((logNotes (layerOf found).diagnostics >>= fun _ =>
      fillLicense found base (layers (layerOf found) overrides) >>= fun d =>
        fillEmail usesGit (home found base) d >>= freeze) w).1 = .ok c ↔
      ∃ license email : Option Text,
        (Highest [] [overrides.spdxLicense, setting Value.asWording? (tableOf found) "spdx_license",
          some []] →
          (declared found base w).1 = .ok (license.map Points.ofText)) ∧
        (address usesGit (home found base) w).1 = .ok email ∧
        (layers (layerOf found) overrides).worded.all Text.isWritable = true ∧
        c = (settled found overrides license email).filled := by
  obtain ⟨errors, hnotes⟩ := logNotes_eq (layerOf found).diagnostics w
  have hlicense : (layers (layerOf found) overrides).spdxLicense =
      some (topmost overrides.spdxLicense
        (setting Value.asWording? (tableOf found) "spdx_license")) := by
    rw [← orElse_eq_topmost, layerOf_eq]
    rfl
  have hemail (spdx : Option Text) : { layers (layerOf found) overrides
      with spdxLicense := spdx }.maintainerEmail =
      some (topmost overrides.maintainerEmail
        (setting Value.asWording? (tableOf found) "maintainer_email")) := by
    rw [← orElse_eq_topmost, layerOf_eq]
    rfl
  rw [bind_of_ok _ hnotes, (looks_fillLicense _ _ _).bind_fst_eq_ok]
  simp only [fillLicense_fst_eq_ok hlicense, (looks_declared found base).fst_said, highest_nil_iff]
  constructor
  · rintro ⟨_, ⟨license, hdeclared, rfl⟩, hrest⟩
    obtain ⟨_, hfill, hfreeze⟩ := bind_fst_eq_ok.mp hrest
    obtain ⟨email, haddress, rfl⟩ := (fillEmail_fst_eq_ok (hemail _)).mp hfill
    rw [address_said] at haddress
    exact ⟨license, email, hdeclared, haddress, freeze_fst_eq_ok.mp hfreeze⟩
  · rintro ⟨license, email, hdeclared, haddress, hfreeze⟩
    refine ⟨_, ⟨license, hdeclared, rfl⟩,
      bind_fst_eq_ok.mpr ⟨settled found overrides license email, ?_, ?_⟩⟩
    · exact (fillEmail_fst_eq_ok (hemail _)).mpr ⟨email, (address_said _ _ _ _).trans haddress, rfl⟩
    · exact freeze_fst_eq_ok.mpr hfreeze

theorem load_fst_eq_ok {path : Option Path} {start : Path} {usesGit : Bool} {w : Workspace} :
    (load path start overrides usesGit w).1 = .ok c ↔
      ∃ (base : Path) (found : Option Found) (license email : Option Text),
        (Act.resolve start w).1 = .ok base ∧
        (source path base w).1 = .ok found ∧
        found.all (·.table.isSome) = true ∧
        (worded (tableOf found)).all Value.isWritable = true ∧
        (Highest [] [overrides.spdxLicense, setting Value.asWording? (tableOf found) "spdx_license",
          some []] →
          (declared found base w).1 = .ok (license.map Points.ofText)) ∧
        (address usesGit (home found base) w).1 = .ok email ∧
        (layers (layerOf found) overrides).worded.all Text.isWritable = true ∧
        c = (settled found overrides license email).filled := by
  rw [load_eq, (Act.looks_resolve start).bind_fst_eq_ok]
  simp only [(looks_source _ _).bind_fst_eq_ok, (looks_fileLayer _).bind_fst_eq_ok,
    fileLayer_fst_eq_ok]
  constructor
  · rintro ⟨base, hbase, found, hfound, _, ⟨hwhole, hwritable, rfl⟩, hfill⟩
    obtain ⟨license, email, hrest⟩ := fill_fst_eq_ok.mp hfill
    exact ⟨base, found, license, email, hbase, hfound, hwhole, hwritable, hrest⟩
  · rintro ⟨base, found, license, email, hbase, hfound, hwhole, hwritable, hrest⟩
    exact ⟨base, hbase, found, hfound, _, ⟨hwhole, hwritable, rfl⟩,
      fill_fst_eq_ok.mpr ⟨license, email, hrest⟩⟩

/-- No setting that loading comes to holds half of a pair of UTF-16 units, for which no
configuration here stands. -/
def IsWhole (path : Option Path) (start : Path) (overrides : Draft) (usesGit : Bool)
    (w : Workspace) : Prop :=
  (load path start overrides usesGit w).1 ≠ .error .unpaired

theorem IsWhole.table {path : Option Path} {start base : Path} {usesGit : Bool} {w : Workspace}
    (hwhole : IsWhole path start overrides usesGit w) (hbase : (Act.resolve start w).1 = .ok base)
    (hfound : (source path base w).1 = .ok found) : found.all (·.table.isSome) = true := by
  by_contra hhalf
  have hfile : (fileLayer found w).1 = .error .unpaired :=
    fileLayer_fst_eq_error.mpr (Or.inl ⟨eq_false_of_ne_true hhalf, rfl⟩)
  apply hwhole
  rw [load_eq, (Act.looks_resolve start).bind_fst_eq_error]
  refine Or.inr ⟨base, hbase, (looks_source path base).bind_fst_eq_error.mpr (Or.inr ⟨found, hfound,
    (looks_fileLayer found).bind_fst_eq_error.mpr (Or.inl hfile)⟩)⟩

/-- A configuration is loaded where the search comes to an end, the numbers of the table that was
found can be put into words, and so can those of the remarks on the layers. Each of its fields is
made of the value in the highest layer that sets it. The search for a license has to come to an end
only where that value is empty. -/
theorem load_eq_ok_iff (path : Option Path) (start : Path) (overrides : Draft) (usesGit : Bool)
    (w : Workspace) (c : Config) (hwhole : IsWhole path start overrides usesGit w) :
    (load path start overrides usesGit w).1 = .ok c ↔
      ∃ (base : Path) (found : Option Found) (license email : Option Text),
        (Act.resolve start w).1 = .ok base ∧
        (source path base w).1 = .ok found ∧
        (worded (tableOf found)).all Value.isWritable = true ∧
        (Highest [] [overrides.spdxLicense, setting Value.asWording? (tableOf found) "spdx_license",
          some []] →
          (declared found base w).1 = .ok (license.map Points.ofText)) ∧
        (address usesGit (home found base) w).1 = .ok email ∧
        (layers (layerOf found) overrides).worded.all Text.isWritable = true ∧
        Layered overrides (tableOf found) license email c ∧
        c.files = (found.map (·.path.text)).toList ++ overrides.files ∧
        c.diagnostics = (layerOf found).diagnostics ++ overrides.diagnostics ++
          (layers (layerOf found) overrides).notes := by
  rw [load_fst_eq_ok]
  refine exists_congr fun base => exists_congr fun found => exists_congr fun license =>
    exists_congr fun email => and_congr_right fun hbase => and_congr_right fun hfound => ?_
  rw [and_iff_right (hwhole.table hbase hfound), eq_filled_iff]

end Loaded

section Examples
open scoped Masthead.Backend

def ruled : Workspace where
  tree := .dir [("package.json".toList, .file (Utf8.encode
    "\x7b\"license\": \"MIT\", \"ante\": \x7b\"width\": 70, \"nameColumn\": 50\x7d\x7d".toList)
    false)]
  cwd := []
  year := 2025
  git := fun _ _ => .exit 0 "ada@example.org\n".toList

def ruledFound : Found where
  path := ⟨['/'], ["package.json".toList]⟩
  table := some [("width".toList, .integer 70), ("nameColumn".toList, .integer 50)]
  camelCase := true
  license := some (.ofText "MIT".toList)

def wider : Draft where
  width := some 90

/-- The width on top counts and not that of the file, whose column does; the project and git tell
the license and the address. -/
theorem load_chooses :
    IsWhole none ⟨[], []⟩ wider true ruled ∧
      ∃ c, (load none ⟨[], []⟩ wider true ruled).1 = .ok c ∧
        c.width = 90 ∧ c.nameColumn = 50 ∧ c.emailColumn = defaultEmailColumn ∧
        c.spdxLicense = "MIT".toList ∧ c.maintainerEmail = "ada@example.org".toList := by
  have hbase : (Act.resolve ⟨[], []⟩ ruled).1 = .ok ⟨['/'], []⟩ := by cbv
  have hfound : (source none ⟨['/'], []⟩ ruled).1 = .ok (some ruledFound) := by cbv
  have hemail : (address true ⟨['/'], []⟩ ruled).1 = .ok (some "ada@example.org".toList) := by cbv
  have hwords : (layers (layerOf (some ruledFound)) wider).worded.all Text.isWritable = true := by
    decide
  obtain ⟨c, hload⟩ : ∃ c, (load none ⟨[], []⟩ wider true ruled).1 = .ok c :=
    ⟨_, load_fst_eq_ok.mpr ⟨⟨['/'], []⟩, some ruledFound, some "MIT".toList,
      some "ada@example.org".toList, hbase, hfound, by decide, by decide, fun _ => rfl, hemail,
      hwords, rfl⟩⟩
  have hwhole : IsWhole none ⟨[], []⟩ wider true ruled := by
    intro hhalf
    rw [hload] at hhalf
    cases hhalf
  obtain ⟨base, found, license, email, hbase', hfound', -, hlicense, hemail', -, h, -⟩ :=
    (load_eq_ok_iff _ _ _ _ _ _ hwhole).mp hload
  obtain rfl := Except.ok.inj (hbase'.symm.trans hbase)
  obtain rfl := Except.ok.inj (hfound'.symm.trans hfound)
  obtain rfl := Except.ok.inj (hemail'.symm.trans hemail)
  obtain rfl : license = some "MIT".toList := by
    have hdeclared := hlicense (highest_iff.mpr (by decide))
    exact Option.map_injective Points.ofText_injective (Except.ok.inj hdeclared.symm)
  exact ⟨hwhole, c, hload, (takes_iff defaultWidth).mp h.width,
    (takes_iff defaultNameColumn).mp h.nameColumn, (takes_iff defaultEmailColumn).mp h.emailColumn,
    (takes_iff []).mp h.spdxLicense, (takes_iff []).mp h.maintainerEmail⟩

def declaring : Workspace where
  tree := .dir [("package.json".toList, .file (Utf8.encode
    "\x7b\"license\": \"MIT\", \"ante\": \x7b\"spdxLicense\": \"\"\x7d\x7d".toList) false)]
  cwd := []
  year := 2025
  git := fun _ _ => .unavailable

def declaringFound : Found where
  path := ⟨['/'], ["package.json".toList]⟩
  table := some [("spdxLicense".toList, .text [])]
  camelCase := true
  license := some (.ofText "MIT".toList)

/-- A license that is set to the empty text is replaced. -/
theorem load_replaces_empty :
    (discover ⟨['/'], []⟩ declaring).1 = .ok (some declaringFound) ∧
      setting Value.asWording? (tableOf (some declaringFound)) "spdx_license" = some [] ∧
      ∃ c, (load none ⟨[], []⟩ {} false declaring).1 = .ok c ∧ c.spdxLicense = "MIT".toList := by
  have hfound : (discover ⟨['/'], []⟩ declaring).1 = .ok (some declaringFound) := by cbv
  have hset : setting Value.asWording? (tableOf (some declaringFound)) "spdx_license" =
      some [] := by decide
  have hwords : (layers (layerOf (some declaringFound)) {}).worded.all Text.isWritable =
      true := by decide
  refine ⟨hfound, hset, _, load_fst_eq_ok.mpr ⟨⟨['/'], []⟩, some declaringFound, some "MIT".toList,
    none, by cbv, hfound, by decide, by decide, fun _ => rfl, rfl, hwords, rfl⟩, by decide⟩

end Examples

end Masthead.Config
