import Masthead.Proofs.Config.Search

/-! What comes of configuration files that cannot be used. A file that is no UTF-8, or that stops
its parser, ends a search with another fault than one of the configuration. -/

namespace Masthead

def Fault.IsConfig (e : Fault) : Prop := ∃ c, e = .config c

namespace Config
open Act (Looks Still IsTooLong LeadsTo)

section Files
variable {p : Path} {w : Workspace} {e : Fault} {required : Bool} {place : Tree.Place}
  {bytes : List UInt8} {b : Bool}

theorem readText_eq (h : LeadsTo p w place bytes b) : readText p w = Act.readText p w := by
  rw [readText, reading, bind_of_ok _ (Act.attempt_apply _ _), h.readText]
  cases Utf8.decode bytes <;> rfl

theorem readText_fst_eq_error (h : LeadsTo p w place bytes b) :
    (Act.readText p w).1 = .error e ↔ ∃ cause, Utf8.decode bytes = .error cause ∧
    e = .encoding cause := by
  rw [h.readText]
  cases Utf8.decode bytes with
  | ok s => simp [Except.mapError, Except.map]
  | error cause => simp [Except.mapError, Except.map, eq_comm]

theorem loadToml_fst_eq_error [Toml.Library] (h : LeadsTo p w place bytes b) :
    (loadToml p w).1 = .error e ↔
    (∃ cause, Utf8.decode bytes = .error cause ∧ e = .encoding cause) ∨
      ∃ s, (Act.readText p w).1 = .ok s ∧ ∃ cause, Toml.parse s = .error cause ∧
      e = tomlFault p cause := by
  rw [loadToml, (looks_readText p).bind_fst_eq_error, readText_eq h, readText_fst_eq_error h]
  simp only [Act.ofExcept_fst_eq_error]

theorem loadJson_fst_eq_error [Limits] (h : LeadsTo p w place bytes b) :
    (loadJson p w).1 = .error e ↔
    (∃ cause, Utf8.decode bytes = .error cause ∧ e = .encoding cause) ∨
      ∃ s, (Act.readText p w).1 = .ok s ∧ ∃ cause, Json.parse s = .error cause ∧
      e = jsonFault p cause := by
  rw [loadJson, (looks_readText p).bind_fst_eq_error, readText_eq h, readText_fst_eq_error h]
  simp only [bind_fst_eq_error, Act.ofExcept_fst_eq_error]
  refine or_congr_right (exists_congr fun s => and_congr_right fun _ => or_iff_left ?_)
  rintro ⟨v, -, hend⟩
  split at hend <;> cases hend

variable [Limits] [Toml.Library]

/-- What the content of a file leads to, if that is no fault of the configuration. A path that is
too long keeps the content from being read at all. -/
inductive Stray (p : Path) (w : Workspace) : Fault → Prop
  | encoding {bytes : List UInt8} {cause : Utf8.Fault} (hread : (Act.readBytes p w).1 = .ok bytes)
      (hdecode : Utf8.decode bytes = .error cause) : Stray p w (.encoding cause)
  | foreign {s : Text} {cause : Foreign} (hread : (Act.readText p w).1 = .ok s)
      (hkind : isManifest p = false)
      (hparse : Toml.parse s = .error (.foreign cause)) : Stray p w (.foreign cause)
  | number {s : Text} {cause : Text.NumeralFault} (hread : (Act.readText p w).1 = .ok s)
      (hkind : isManifest p = true)
      (hparse : Json.parse s = .error (.number cause)) : Stray p w (.number cause)
  | tooDeep {s : Text} {cause : Json.Nesting} (hread : (Act.readText p w).1 = .ok s)
      (hkind : isManifest p = true)
      (hparse : Json.parse s = .error (.tooDeep cause)) : Stray p w (.tooDeep cause)
  | tooLong (hlong : IsTooLong p w) : Stray p w (.file ⟨.nameTooLong, p.text⟩)

theorem Stray.not_isConfig (h : Stray p w e) : ¬ e.IsConfig := by
  rintro ⟨c, rfl⟩
  cases h

theorem loaded_fst_eq_error (h : LeadsTo p w place bytes b) (he : ¬ e.IsConfig) :
    (loaded p w).1 = .error e ↔ Stray p w e := by
  have hbytes : (Act.readBytes p w).1 = .ok bytes := by rw [h.readBytes]
  have hshort : ¬ IsTooLong p w := by
    rintro ⟨-, hlong | hlong⟩
    · exact h.short hlong
    · rw [h.found] at hlong
      cases hlong
  have hencoding : (∃ cause, Utf8.decode bytes = .error cause ∧ e = .encoding cause) →
      Stray p w e := by
    rintro ⟨cause, hdecode, rfl⟩
    exact .encoding hbytes hdecode
  have hwhole {α : Type} {x : Act α} {f : α → Contents} (hx : Looks x) :
      ((x >>= fun a => pure (f a)) w).1 = .error e ↔ (x w).1 = .error e := by
    rw [hx.bind_fst_eq_error]
    exact or_iff_left fun ⟨_, _, hend⟩ => by cases hend
  rw [loaded]
  split_ifs with hkind
  · rw [hwhole (looks_loadJson p), loadJson_fst_eq_error h]
    constructor
    · rintro (hdecode | ⟨s, hs, cause, hparse, rfl⟩)
      · exact hencoding hdecode
      · cases cause with
        | malformed => exact absurd ⟨_, rfl⟩ he
        | number cause => exact .number hs hkind hparse
        | tooDeep cause => exact .tooDeep hs hkind hparse
    · intro hstray
      cases hstray with
      | encoding hread hdecode =>
        obtain rfl := Except.ok.inj (hbytes.symm.trans hread)
        exact Or.inl ⟨_, hdecode, rfl⟩
      | foreign hread hother => simp [hkind] at hother
      | number hread _ hparse => exact Or.inr ⟨_, hread, _, hparse, rfl⟩
      | tooDeep hread _ hparse => exact Or.inr ⟨_, hread, _, hparse, rfl⟩
      | tooLong hlong => exact absurd hlong hshort
  · rw [hwhole (looks_loadToml p), loadToml_fst_eq_error h]
    constructor
    · rintro (hdecode | ⟨s, hs, cause, hparse, rfl⟩)
      · exact hencoding hdecode
      · cases cause with
        | malformed => exact absurd ⟨_, rfl⟩ he
        | foreign cause => exact .foreign hs (by simpa using hkind) hparse
    · intro hstray
      cases hstray with
      | encoding hread hdecode =>
        obtain rfl := Except.ok.inj (hbytes.symm.trans hread)
        exact Or.inl ⟨_, hdecode, rfl⟩
      | foreign hread _ hparse => exact Or.inr ⟨_, hread, _, hparse, rfl⟩
      | number _ hother => exact absurd hother hkind
      | tooDeep _ hother => exact absurd hother hkind
      | tooLong hlong => exact absurd hlong hshort

theorem Stray.leadsTo (h : Stray p w e) : IsTooLong p w ∧ e = .file ⟨.nameTooLong, p.text⟩ ∨
    ∃ place bytes b, LeadsTo p w place bytes b := by
  have hfile {bytes : List UInt8} (hread : (Act.readBytes p w).1 = .ok bytes) :
      ∃ place bytes b, LeadsTo p w place bytes b := by
    obtain ⟨-, place, b, hleads⟩ := Act.exists_leadsTo (Prod.ext hread rfl)
    exact ⟨place, bytes, b, hleads⟩
  cases h with
  | encoding hread => exact Or.inr (hfile hread)
  | foreign hread => exact Or.inr (Act.exists_leadsTo_of_readText hread)
  | number hread => exact Or.inr (Act.exists_leadsTo_of_readText hread)
  | tooDeep hread => exact Or.inr (Act.exists_leadsTo_of_readText hread)
  | tooLong hlong => exact Or.inl ⟨hlong, rfl⟩

theorem read_fst_eq_error (he : ¬ e.IsConfig) : (read p required w).1 = .error e ↔ Stray p w e := by
  rw [read, (Act.looks_isFile p).bind_fst_eq_error, Act.isFile_fst_eq_error]
  constructor
  · rintro (⟨hlong, rfl⟩ | ⟨isFile, hfile, hrest⟩)
    · exact .tooLong hlong
    · cases isFile with
      | false =>
        rw [if_neg (by decide)] at hrest
        split_ifs at hrest
        · exact absurd ⟨_, Act.throw_fst_eq_error.mp hrest⟩ he
        · cases hrest
      | true =>
        obtain ⟨place, bytes, b, hleads⟩ := Act.isFile_fst_eq_true.mp hfile
        rw [if_pos rfl, (looks_loaded p).bind_fst_eq_error, loaded_fst_eq_error hleads he] at hrest
        refine hrest.resolve_right ?_
        rintro ⟨data, -, hend⟩
        cases hend
  · intro hstray
    rcases hstray.leadsTo with hlong | ⟨place, bytes, b, hleads⟩
    · exact Or.inl hlong
    · refine Or.inr ⟨true, Act.isFile_fst_eq_true.mpr ⟨place, bytes, b, hleads⟩, ?_⟩
      rw [if_pos rfl, (looks_loaded p).bind_fst_eq_error, loaded_fst_eq_error hleads he]
      exact Or.inl hstray

theorem licenseIn_fst_eq_error : (licenseIn p w).1 = .error e ↔ Stray p w e := by
  rw [licenseIn, (Act.looks_isFile p).bind_fst_eq_error, Act.isFile_fst_eq_error]
  constructor
  · rintro (⟨hlong, rfl⟩ | ⟨isFile, hfile, hrest⟩)
    · exact .tooLong hlong
    · cases isFile with
      | false => cases hrest
      | true =>
        obtain ⟨place, bytes, b, hleads⟩ := Act.isFile_fst_eq_true.mp hfile
        rw [if_pos rfl, bind_of_ok _ (Act.attempt_apply _ _)] at hrest
        rcases hloaded : (loaded p w).1 with cause | data
        · rw [hloaded] at hrest
          cases cause with
          | config c => cases hrest
          | _ =>
            obtain rfl := Act.throw_fst_eq_error.mp hrest
            exact (loaded_fst_eq_error hleads (by rintro ⟨c, hc⟩; cases hc)).mp hloaded
        · rw [hloaded] at hrest
          cases hrest
  · intro hstray
    rcases hstray.leadsTo with hlong | ⟨place, bytes, b, hleads⟩
    · exact Or.inl hlong
    · refine Or.inr ⟨true, Act.isFile_fst_eq_true.mpr ⟨place, bytes, b, hleads⟩, ?_⟩
      have hloaded := (loaded_fst_eq_error hleads hstray.not_isConfig).mpr hstray
      rw [if_pos rfl, bind_of_ok _ (Act.attempt_apply _ _), hloaded]
      cases hstray <;> rfl

end Files

/-! Searches -/

theorem startDirectory_not_config {start : Path} {w : Workspace} {e : Fault}
    (h : (startDirectory start w).1 = .error e) : ¬ e.IsConfig := by
  rintro ⟨c, rfl⟩
  rw [startDirectory, (Act.looks_resolve start).bind_fst_eq_error] at h
  rcases h with h | ⟨q, -, h⟩
  · rw [Act.resolve_fst, Act.find_eq] at h
    split_ifs at h
    · cases h
    · cases h
    · split at h
      · next hfind => cases hfind
      · cases h
      · cases h
  · rw [(Act.looks_isFile _).bind_fst_eq_error, Act.isFile_fst_eq_error] at h
    rcases h with ⟨-, h⟩ | ⟨isFile, -, h⟩
    · cases h
    · split_ifs at h <;> cases h

section Searches
variable [Limits] [Toml.Library]
variable {start base p : Path} {w : Workspace} {e : Fault} {path : Option Path} {overrides : Draft}
  {usesGit : Bool}

def sources (place : Tree.Place) : List Path :=
  (upwards place).flatMap fun directory => sourceNames.map directory.child

def manifests (place : Tree.Place) : List Path :=
  (upwards place).flatMap fun directory => (projectFileName :: manifestNames).map directory.child

/-- A search through files comes to one that leads to the fault, past all that say nothing. -/
def IsStopped {β : Type} (x : Path → Act (Option β)) (files : List Path) (w : Workspace)
    (e : Fault) : Prop :=
  ∃ before p after, files = before ++ p :: after ∧ (∀ q ∈ before, (x q w).1 = .ok none) ∧
    Stray p w e

theorem discover_fst_eq_error (he : ¬ e.IsConfig) :
    (discover start w).1 = .error e ↔ (startDirectory start w).1 = .error e ∨
      ∃ place, (startDirectory start w).1 = .ok place ∧
      IsStopped (fun q => read q false) (sources place) w e := by
  rw [discover, (looks_startDirectory start).bind_fst_eq_error]
  simp only [firstAmong_eq, search_fst_eq_error fun q => (looks_read q false).still,
    read_fst_eq_error he, sources, IsStopped]

theorem detectLicense_fst_eq_error :
    (detectLicense start w).1 = .error e ↔ (startDirectory start w).1 = .error e ∨
      ∃ place, (startDirectory start w).1 = .ok place ∧
      IsStopped licenseIn (manifests place) w e := by
  rw [detectLicense, (looks_startDirectory start).bind_fst_eq_error]
  simp only [licenseAmong_eq, search_fst_eq_error fun q => (looks_licenseIn q).still,
    licenseIn_fst_eq_error, manifests, IsStopped]

theorem source_fst_eq_error (he : ¬ e.IsConfig) :
    (source path base w).1 = .error e ↔
      (∃ p, path = some p ∧ Stray p w e) ∨ path = none ∧ (discover base w).1 = .error e := by
  cases path with
  | none => simp [source]
  | some p => simp [source, read_fst_eq_error he]

end Searches

/-! Loading -/

section Steps
variable {found : Option Found} {d : Draft} {w : Workspace} {e : Fault}

theorem withLicense_fst_eq_error {license : Points} :
    (withLicense d license w).1 = .error e ↔ license.text? = none ∧ e = .unpaired := by
  rw [withLicense]
  cases license.text? with
  | none => exact Act.throw_fst_eq_error.trans (and_iff_right rfl).symm
  | some t => exact iff_of_false Act.pure_fst_ne_error (fun h => by cases h.1)

theorem exists_fillEmail (usesGit : Bool) (directory : Path) (d : Draft) (w : Workspace) :
    ∃ d', (fillEmail usesGit directory d w).1 = .ok d' ∧ d'.worded = d.worded := by
  have hsetting := Git.setting_fst "user.email" directory w
  rw [fillEmail]
  split_ifs
  · generalize Git.valueOf _ = address at hsetting
    rcases address with _ | _ | ⟨c, address⟩ <;>
      exact ⟨_, bind_fst_eq_ok.mpr ⟨_, hsetting, rfl⟩, rfl⟩
  · exact ⟨d, rfl, rfl⟩

theorem freeze_fst_eq_error :
    (freeze d w).1 = .error e ↔ d.worded.all Text.isWritable = false ∧ e = .number .unwritable := by
  rw [freeze_fst, Draft.freeze]
  split_ifs with hwritable
  · simp [hwritable, Except.mapError]
  · simp [hwritable, Except.mapError, eq_comm]

end Steps

section Loading
variable [Limits] [Toml.Library]
variable {start base : Path} {w : Workspace} {e : Fault} {path : Option Path} {overrides : Draft}
  {usesGit : Bool}
  {found : Option Found} {d : Draft}

theorem declared_fst_eq_error :
    (declared found base w).1 = .error e ↔
      found.bind (·.license) = none ∧ (detectLicense (home found base) w).1 = .error e := by
  rw [declared]
  generalize found.bind (·.license) = license
  cases license with
  | some license => exact iff_of_false Act.pure_fst_ne_error (fun h => by cases h.1)
  | none => exact (and_iff_right rfl).symm

theorem fillLicense_fst_eq_error :
    (fillLicense found base d w).1 = .error e ↔ isOpen d.spdxLicense = true ∧
      ((declared found base w).1 = .error e ∨
        ∃ license, (declared found base w).1 = .ok (some license) ∧ license.text? = none ∧
        e = .unpaired) := by
  rw [fillLicense]
  split_ifs with hopen
  · rw [and_iff_right hopen, (looks_declared found base).bind_fst_eq_error]
    refine or_congr_right ⟨?_, ?_⟩
    · rintro ⟨_ | license, hdeclared, hend⟩
      · cases hend
      · exact ⟨license, hdeclared, withLicense_fst_eq_error.mp hend⟩
    · rintro ⟨license, hdeclared, hend⟩
      exact ⟨some license, hdeclared, withLicense_fst_eq_error.mpr hend⟩
  · exact iff_of_false Act.pure_fst_ne_error (fun h => hopen h.1)

theorem worded_of_fillLicense {d' : Draft} (h : (fillLicense found base d w).1 = .ok d') :
    d'.worded = d.worded := by
  rw [fillLicense] at h
  split_ifs at h
  · obtain ⟨_ | license, -, hend⟩ := (looks_declared found base).bind_fst_eq_ok.mp h
    · rw [pure_fst_eq_ok.mp hend]
    · obtain ⟨t, -, rfl⟩ := withLicense_fst_eq_ok.mp hend
      rfl
  · rw [pure_fst_eq_ok.mp h]

theorem fill_fst_eq_error {notes : List Diagnostic} {directory : Path} :
    ((logNotes notes >>= fun _ => fillLicense found base d >>= fun d => fillEmail usesGit directory
      d >>= freeze)
        w).1 = .error e ↔
      (fillLicense found base d w).1 = .error e ∨
        (∃ d', (fillLicense found base d w).1 = .ok d') ∧ d.worded.all Text.isWritable = false ∧
          e = .number .unwritable := by
  obtain ⟨errors, hnotes⟩ := logNotes_eq notes w
  rw [bind_of_ok _ hnotes, (looks_fillLicense _ _ _).bind_fst_eq_error,
    (looks_fillLicense _ _ _).fst_said]
  refine or_congr_right ?_
  rw [← exists_and_right]
  refine exists_congr fun d' => and_congr_right fun hd' => ?_
  obtain ⟨d'', hemail, hworded⟩ := exists_fillEmail usesGit directory d' { w with errors }
  rw [bind_fst_eq_error, hemail, ← worded_of_fillLicense hd', ← hworded]
  simp [freeze_fst_eq_error]

/-- Loading fails where the search does, at half of a pair of units or a number that cannot be put
into words, and where the license is open and the search for it fails. -/
theorem load_fst_eq_error :
    (load path start overrides usesGit w).1 = .error e ↔ (Act.resolve start w).1 = .error e ∨
      ∃ base, (Act.resolve start w).1 = .ok base ∧ ((source path base w).1 = .error e ∨
        ∃ found, (source path base w).1 = .ok found ∧ ((fileLayer found w).1 = .error e ∨
          (fileLayer found w).1 = .ok (layerOf found) ∧
            ((fillLicense found base (layers (layerOf found) overrides) w).1 = .error e ∨
              (∃ d, (fillLicense found base (layers (layerOf found) overrides) w).1 = .ok d) ∧
                (layers (layerOf found) overrides).worded.all Text.isWritable = false ∧
                e = .number .unwritable))) := by
  rw [load_eq, (Act.looks_resolve start).bind_fst_eq_error]
  simp only [(looks_source _ _).bind_fst_eq_error, (looks_fileLayer _).bind_fst_eq_error,
    fill_fst_eq_error]
  refine or_congr_right (exists_congr fun base => and_congr_right fun _ =>
    or_congr_right (exists_congr fun found =>
    and_congr_right fun _ => or_congr_right ⟨?_, fun h => ⟨_, h⟩⟩))
  rintro ⟨file, hfile, hend⟩
  obtain rfl := (fileLayer_fst_eq_ok.mp hfile).2.2
  exact ⟨hfile, hend⟩

end Loading

/-! Adding a table -/

section Adding
variable {p : Path} {w : Workspace} {e : Fault} {keys : List Text}
  {values : List (Text × Toml.Content)} {s : Points}

def given (p : Path) : Act Text := do
  if ← reading p (Act.isThere p) then readText p else pure []

theorem looks_given (p : Path) : Looks (given p) := by
  refine (looks_reading p (Act.looks_isThere p)).bind fun isThere => ?_
  split_ifs
  · exact looks_readText p
  · exact Act.looks_compositional.pure _

theorem readText_cases (hnull : p.hasNull = false) (h : (readText p w).1 = .error e) :
    e.IsConfig ∨ ∃ bytes cause, (Act.readBytes p w).1 = .ok bytes ∧ Utf8.decode bytes =
    .error cause ∧
      e = .encoding cause := by
  have hread : (Act.readBytes p w).1 = Act.bytesIn p w.tree (Act.start p w) := by
    rw [Act.readBytes_eq]
  rcases hbytes : Act.bytesIn p w.tree (Act.start p w) with fault | bytes
  · have hfile : ∃ cause, fault = .file cause := by
      rw [Act.bytesIn, if_neg (by simp [hnull])] at hbytes
      split_ifs at hbytes
      · exact ⟨_, (Except.error.inj hbytes).symm⟩
      · split at hbytes <;> first | exact ⟨_, (Except.error.inj hbytes).symm⟩ | cases hbytes
    obtain ⟨cause, rfl⟩ := hfile
    have htext : (Act.readText p w).1 = .error (.file cause) := by
      rw [Act.readText, Act.readRaw, bind_apply, bind_apply, Act.readBytes_eq, hbytes]
    rw [readText, reading, bind_of_ok _ (Act.attempt_apply _ _), htext] at h
    exact Or.inl ⟨_, Act.throw_fst_eq_error.mp h⟩
  · obtain ⟨-, place, b, hleads⟩ := Act.exists_leadsTo (Prod.ext (hread.trans hbytes) rfl)
    rw [readText_eq hleads, readText_fst_eq_error hleads] at h
    obtain ⟨cause, hdecode, rfl⟩ := h
    exact Or.inr ⟨bytes, cause, hread.trans hbytes, hdecode, rfl⟩

theorem given_fst_eq_error (he : ¬ e.IsConfig) :
    (given p w).1 = .error e ↔ ∃ bytes cause, (Act.readBytes p w).1 = .ok bytes ∧
    Utf8.decode bytes = .error cause ∧
      e = .encoding cause := by
  have hlook : reading p (Act.isThere p) w =
      match Act.seen p w with
      | .error cause => (.error (.config (.unreadable p.text ⟨.nameTooLong, p.text⟩)), w)
      | .ok found => (.ok found.isSome, w) := by
    rw [reading, bind_of_ok _ (Act.attempt_apply _ _), Act.isThere_eq]
    rcases hseen : Act.seen p w with cause | found
    · rw [Act.seen_eq_error hseen]
      rfl
    · rfl
  rw [given, (looks_reading p (Act.looks_isThere p)).bind_fst_eq_error, hlook]
  constructor
  · rintro (hfail | ⟨isThere, hthere, hrest⟩)
    · rcases hseen : Act.seen p w with cause | found
      · rw [hseen] at hfail
        exact absurd ⟨_, (Except.error.inj hfail).symm⟩ he
      · rw [hseen] at hfail
        cases hfail
    · cases isThere with
      | false => cases hrest
      | true =>
        have hnull : p.hasNull = false := by
          by_contra hnull
          rw [Act.seen, if_pos (by simpa using hnull)] at hthere
          cases hthere
        exact (readText_cases hnull hrest).resolve_left he
  · rintro ⟨bytes, cause, hread, hdecode, rfl⟩
    obtain ⟨-, place, b, hleads⟩ := Act.exists_leadsTo (Prod.ext hread rfl)
    refine Or.inr ⟨true, ?_, ?_⟩
    · rw [Act.seen, if_neg (by simp [hleads.valid]), if_neg hleads.short, hleads.found]
      rfl
    · rw [if_pos rfl, readText_eq hleads, readText_fst_eq_error hleads]
      exact ⟨cause, hdecode, rfl⟩

theorem writeBytes_fst_eq_error {bytes : List UInt8} (he : ∀ cause, e ≠ .file cause) :
    (Act.writeBytes p bytes w).1 = .error e ↔ p.hasNull = true ∧ e = .nullByte := by
  rw [Act.writeBytes, bind_apply, Act.find_eq]
  split_ifs with hnull hlong
  · simp [hnull, eq_comm]
  · exact iff_of_false (fun h => he _ (Act.throw_fst_eq_error.mp h)) (fun h => hnull h.1)
  · refine iff_of_false (fun h => ?_) (fun h => hnull h.1)
    rcases hfind : w.tree.find (Act.start p w) p.parts with cause | ⟨place, t⟩
    · rw [hfind] at h
      exact he _ (Act.throw_fst_eq_error.mp h)
    · rw [hfind] at h
      rcases t with _ | _ | _ | _ <;> first | exact he _ (Act.throw_fst_eq_error.mp h) | cases h

theorem writePoints_fst_eq_error (he : ∀ cause, e ≠ .file cause) :
    (Act.writePoints p s w).1 = .error e ↔ p.hasNull = true ∧ e = .nullByte ∨
      ∃ half, s.half? = some half ∧ (Act.writeBytes p [] w).1 = .ok () ∧ e = .unencodable half := by
  rw [Act.writePoints]
  cases hhalf : s.half? with
  | none => simp [Act.writeText, writeBytes_fst_eq_error he]
  | some half =>
    rw [bind_fst_eq_error, writeBytes_fst_eq_error he]
    refine or_congr_right ⟨?_, ?_⟩
    · rintro ⟨⟨⟩, hwrite, hend⟩
      exact ⟨half, rfl, hwrite, Act.throw_fst_eq_error.mp hend⟩
    · rintro ⟨_, hsame, hwrite, rfl⟩
      obtain rfl := Option.some.inj hsame
      exact ⟨(), hwrite, rfl⟩

def store (p : Path) (s : Points) : Act Bool := do
  match ← Act.attempt (Act.writePoints p s) with
  | .ok () => return true
  | .error (.file e) => throw (.config (.unwritable p.text e))
  | .error e => throw e

theorem store_fst_eq_error (he : ¬ e.IsConfig) :
    (store p s w).1 = .error e ↔ (∀ cause, e ≠ .file cause) ∧ (Act.writePoints p s w).1 =
    .error e := by
  rw [store, bind_of_ok _ (Act.attempt_apply _ _)]
  rcases (Act.writePoints p s w).1 with cause | ⟨⟩
  · cases cause with
    | file cause =>
      refine iff_of_false (fun h => he ⟨_, Act.throw_fst_eq_error.mp h⟩) fun h => ?_
      exact h.1 cause (Except.error.inj h.2).symm
    | _ =>
      refine Act.throw_fst_eq_error.trans ⟨?_, fun h => (Except.error.inj h.2).symm⟩
      rintro rfl
      exact ⟨nofun, rfl⟩
  · exact iff_of_false Act.pure_fst_ne_error (fun h => by cases h.2)

theorem store_fst_eq_error_iff (he : ¬ e.IsConfig) :
    (store p s w).1 = .error e ↔ p.hasNull = true ∧ e = .nullByte ∨
      ∃ half, s.half? = some half ∧ (Act.writeBytes p [] w).1 = .ok () ∧ e = .unencodable half := by
  rw [store_fst_eq_error he]
  constructor
  · rintro ⟨hfile, hwrite⟩
    exact (writePoints_fst_eq_error hfile).mp hwrite
  · intro h
    have hfile : ∀ cause, e ≠ .file cause := by
      rintro cause rfl
      rcases h with ⟨-, h⟩ | ⟨_, -, -, h⟩ <;> cases h
    exact ⟨hfile, (writePoints_fst_eq_error hfile).mpr h⟩

variable [Toml.Library]

def amend (p : Path) (keys : List Text) (values : List (Text × Toml.Content)) (d : Toml.Document) :
    Act Bool :=
  match d.add keys values with
  | .error .present => return false
  | .error (.notTable key) => throw (.config (.notTable p.text key))
  | .error (.foreign e) => throw (.foreign e)
  | .ok d => Act.ofExcept .foreign (Toml.Library.text d) >>= store p

def extend (p : Path) (keys : List Text) (values : List (Text × Toml.Content)) (text : Text) :
    Act Bool :=
  Act.ofExcept (tomlFault p) (Toml.Library.parse text) >>= amend p keys values

theorem addSection_eq (p : Path) (keys : List Text) (values : List (Text × Toml.Content)) :
    addSection p keys values = given p >>= extend p keys values := by
  rw [addSection, given, bind_assoc]
  refine bind_congr fun isThere => ?_
  cases isThere <;> rfl

theorem amend_fst_eq_error (he : ¬ e.IsConfig) {d : Toml.Document} :
    (amend p keys values d w).1 = .error e ↔
      (∃ cause, d.add keys values = .error (.foreign cause) ∧ e = .foreign cause) ∨
      ∃ d', d.add keys values = .ok d' ∧
      ((∃ cause, Toml.Library.text d' = .error cause ∧ e = .foreign cause) ∨
        ∃ s, Toml.Library.text d' = .ok s ∧ (store p s w).1 = .error e) := by
  rw [amend]
  rcases hadd : d.add keys values with (key | _ | cause) | d'
  · exact iff_of_false (fun h => he ⟨_, Act.throw_fst_eq_error.mp h⟩) (by simp)
  · exact iff_of_false Act.pure_fst_ne_error (by simp)
  · exact Act.throw_fst_eq_error.trans (by simp)
  · dsimp only
    rw [(Act.looks_compositional.ofExcept _ _).bind_fst_eq_error, Act.ofExcept_fst_eq_error]
    simp [Act.ofExcept_fst_eq_ok]

/-- The library stops at the text, at the adding, or at the writing of the document. -/
inductive Refuses (keys : List Text) (values : List (Text × Toml.Content)) (text : Text) :
    Foreign → Prop
  | parse {cause : Foreign} (hparse : Toml.Library.parse text = .error (.foreign cause)) :
    Refuses keys values text cause
  | add {d : Toml.Document} {cause : Foreign} (hparse : Toml.Library.parse text = .ok d)
      (hadd : d.add keys values = .error (.foreign cause)) : Refuses keys values text cause
  | write {d d' : Toml.Document} {cause : Foreign} (hparse : Toml.Library.parse text = .ok d)
      (hadd : d.add keys values = .ok d') (htext : Toml.Library.text d' = .error cause) :
    Refuses keys values text cause

def Extends (keys : List Text) (values : List (Text × Toml.Content)) (text : Text) (s : Points) :
    Prop :=
  ∃ d d', Toml.Library.parse text = .ok d ∧ Toml.Document.add d keys values = .ok d' ∧
    Toml.Library.text d' = .ok s

theorem extend_fst_eq_error (he : ¬ e.IsConfig) {text : Text} :
    (extend p keys values text w).1 = .error e ↔
      (∃ cause, Refuses keys values text cause ∧ e = .foreign cause) ∨
      ∃ s, Extends keys values text s ∧ (store p s w).1 = .error e := by
  rw [extend, (Act.looks_compositional.ofExcept _ _).bind_fst_eq_error, Act.ofExcept_fst_eq_error]
  simp only [Act.ofExcept_fst_eq_ok, amend_fst_eq_error he]
  constructor
  · rintro (⟨_ | cause, hparse, rfl⟩ |
      ⟨d, hparse, ⟨cause, hadd, rfl⟩ | ⟨d', hadd, ⟨cause, htext, rfl⟩ | ⟨s, htext, hstore⟩⟩⟩)
    · exact absurd ⟨_, rfl⟩ he
    · exact Or.inl ⟨cause, .parse hparse, rfl⟩
    · exact Or.inl ⟨cause, .add hparse hadd, rfl⟩
    · exact Or.inl ⟨cause, .write hparse hadd htext, rfl⟩
    · exact Or.inr ⟨s, ⟨d, d', hparse, hadd, htext⟩, hstore⟩
  · rintro (⟨cause, hparse | ⟨hparse, hadd⟩ | ⟨hparse, hadd, htext⟩, rfl⟩ |
      ⟨s, ⟨d, d', hparse, hadd, htext⟩, hstore⟩)
    · exact Or.inl ⟨_, hparse, rfl⟩
    · exact Or.inr ⟨_, hparse, Or.inl ⟨cause, hadd, rfl⟩⟩
    · exact Or.inr ⟨_, hparse, Or.inr ⟨_, hadd, Or.inl ⟨cause, htext, rfl⟩⟩⟩
    · exact Or.inr ⟨_, hparse, Or.inr ⟨_, hadd, Or.inr ⟨s, htext, hstore⟩⟩⟩

theorem addSection_fst_eq_error (he : ¬ e.IsConfig) :
    (addSection p keys values w).1 = .error e ↔
      (∃ bytes cause, (Act.readBytes p w).1 = .ok bytes ∧ Utf8.decode bytes = .error cause ∧
        e = .encoding cause) ∨
      ∃ text, (given p w).1 = .ok text ∧
        ((∃ cause, Refuses keys values text cause ∧ e = .foreign cause) ∨
          ∃ s, Extends keys values text s ∧ (p.hasNull = true ∧ e = .nullByte ∨
            ∃ half, s.half? = some half ∧ (Act.writeBytes p [] w).1 = .ok () ∧
            e = .unencodable half)) := by
  rw [addSection_eq, (looks_given p).bind_fst_eq_error, given_fst_eq_error he]
  simp only [extend_fst_eq_error he, store_fst_eq_error_iff he]

end Adding

section
variable [Limits] [Toml.Library]

theorem exists_fillLicense_iff {found : Option Found} {base : Path} {d : Draft} {w : Workspace}
    (hwhole : (fillLicense found base d w).1 ≠ .error .unpaired) :
    (∃ d', (fillLicense found base d w).1 = .ok d') ↔
      (isOpen d.spdxLicense = true → ∃ license, (declared found base w).1 = .ok license) := by
  constructor
  · rintro ⟨d', hd'⟩ hopen
    rcases hdeclared : (declared found base w).1 with cause | license
    · rw [fillLicense_fst_eq_error.mpr ⟨hopen, Or.inl hdeclared⟩] at hd'
      cases hd'
    · exact ⟨license, rfl⟩
  · intro h
    rcases hfill : (fillLicense found base d w).1 with cause | d'
    · obtain ⟨hopen, hdeclared | ⟨-, -, -, rfl⟩⟩ := fillLicense_fst_eq_error.mp hfill
      · obtain ⟨license, hlicense⟩ := h hopen
        rw [hlicense] at hdeclared
        cases hdeclared
      · exact absurd hfill hwhole
    · exact ⟨d', rfl⟩

theorem load_fst_eq_error_of_whole {path : Option Path} {start : Path} {overrides : Draft}
    {usesGit : Bool} {w : Workspace} {e : Fault}
    (hwhole : IsWhole path start overrides usesGit w) (he : e ≠ .unpaired) :
    (load path start overrides usesGit w).1 = .error e ↔ (Act.resolve start w).1 = .error e ∨
      ∃ base, (Act.resolve start w).1 = .ok base ∧ ((source path base w).1 = .error e ∨
        ∃ found, (source path base w).1 = .ok found ∧
          ((worded (tableOf found)).all Value.isWritable = false ∧ e = .number .unwritable ∨
            (worded (tableOf found)).all Value.isWritable = true ∧
              (isOpen (layers (layerOf found) overrides).spdxLicense = true ∧
                  found.bind (·.license) = none ∧ (detectLicense (home found base) w).1 = .error e ∨
                (isOpen (layers (layerOf found) overrides).spdxLicense = true →
                  ∃ license, (declared found base w).1 = .ok license) ∧
                (layers (layerOf found) overrides).worded.all Text.isWritable = false ∧
                e = .number .unwritable))) := by
  rw [load_fst_eq_error]
  refine or_congr_right (exists_congr fun base => and_congr_right fun hbase => or_congr_right
    (exists_congr fun found => and_congr_right fun hfound => ?_))
  have hall := hwhole.table hbase hfound
  rw [fileLayer_fst_eq_error, fileLayer_fst_eq_ok]
  simp only [hall, he, and_false, false_or, true_and, and_true]
  refine or_congr_right (and_congr_right fun hwritable => ?_)
  -- filling in the license does not end in such a half, as loading would end in it
  have hfill : (fillLicense found base (layers (layerOf found) overrides) w).1 ≠
      .error .unpaired := by
    intro h
    have hfile : (fileLayer found w).1 = .ok (layerOf found) :=
      fileLayer_fst_eq_ok.mpr ⟨hall, hwritable, rfl⟩
    exact hwhole (load_fst_eq_error.mpr (Or.inr ⟨base, hbase, Or.inr ⟨found, hfound,
      Or.inr ⟨hfile, Or.inl h⟩⟩⟩))
  rw [exists_fillLicense_iff hfill, fillLicense_fst_eq_error, declared_fst_eq_error]
  simp only [he, and_false, exists_false, or_false]

/-- When something else than a fault of the configuration comes of configuration files. A search is
stopped by the first file that leads to such a fault, unless a file before it ends the search: one
that is no UTF-8, one that its parser stops at with anything else than that it is malformed, or one
whose path is too long. Beyond that, only a start that names no directory stops a search, a number
with too many digits a configuration, and an entry that takes no table or half of a pair of units
the adding of a table. What comes of a load is said where no setting holds half of a pair of units.
The search for a license never ends in a fault of the configuration. -/
theorem faults_besides_config (path : Option Path) (start : Path) (overrides : Draft)
    (usesGit : Bool) (p : Path) (keys : List Text) (values : List (Text × Toml.Content))
    (w : Workspace) (e : Fault) :
    (¬ e.IsConfig →
      ((discover start w).1 = .error e ↔ (startDirectory start w).1 = .error e ∨
        ∃ place, (startDirectory start w).1 = .ok place ∧
        IsStopped (fun q => read q false) (sources place) w e)) ∧
    (¬ e.IsConfig → e ≠ .unpaired → IsWhole path start overrides usesGit w →
      ((load path start overrides usesGit w).1 = .error e ↔ (Act.resolve start w).1 = .error e ∨
        ∃ base, (Act.resolve start w).1 = .ok base ∧
          ((∃ p, path = some p ∧ Stray p w e) ∨ path = none ∧ (discover base w).1 = .error e ∨
            ∃ found, (source path base w).1 = .ok found ∧
              ((worded (tableOf found)).all Value.isWritable = false ∧ e = .number .unwritable ∨
                (worded (tableOf found)).all Value.isWritable = true ∧
                  (isOpen (layers (layerOf found) overrides).spdxLicense = true ∧
                      found.bind (·.license) = none ∧
                      (detectLicense (home found base) w).1 = .error e ∨
                    (isOpen (layers (layerOf found) overrides).spdxLicense = true →
                      ∃ license, (declared found base w).1 = .ok license) ∧
                    (layers (layerOf found) overrides).worded.all Text.isWritable = false ∧
                    e = .number .unwritable))))) ∧
    (¬ e.IsConfig →
      ((addSection p keys values w).1 = .error e ↔
        (∃ bytes cause, (Act.readBytes p w).1 = .ok bytes ∧ Utf8.decode bytes = .error cause ∧
          e = .encoding cause) ∨
        ∃ text, (given p w).1 = .ok text ∧
          ((∃ cause, Refuses keys values text cause ∧ e = .foreign cause) ∨
            ∃ s, Extends keys values text s ∧ (p.hasNull = true ∧ e = .nullByte ∨
              ∃ half, s.half? = some half ∧ (Act.writeBytes p [] w).1 = .ok () ∧
              e = .unencodable half)))) ∧
    ((detectLicense start w).1 = .error e ↔ (startDirectory start w).1 = .error e ∨
      ∃ place, (startDirectory start w).1 = .ok place ∧ IsStopped licenseIn (manifests place) w e) ∧
    ((startDirectory start w).1 = .error e → ¬ e.IsConfig) := by
  refine ⟨discover_fst_eq_error, fun he hpair hwhole => ?_, addSection_fst_eq_error,
    detectLicense_fst_eq_error, startDirectory_not_config⟩
  rw [load_fst_eq_error_of_whole hwhole hpair]
  simp only [source_fst_eq_error he, or_assoc]

end

section Examples
open scoped Masthead.Backend

def undecodable : Workspace where
  tree := .dir [("package.json".toList, .file [0xff] false)]
  cwd := []
  year := 2025
  git := fun _ _ => .unavailable

theorem stopped_undecodable :
    (detectLicense ⟨[], []⟩ undecodable).1 = .error (.encoding ⟨0xff, 0, 1, .invalidStart⟩) ∧
      (load none ⟨[], []⟩ {} false undecodable).1 = .error (.encoding ⟨0xff, 0, 1, .invalidStart⟩) ∧
      ¬ (Fault.encoding ⟨0xff, 0, 1, .invalidStart⟩).IsConfig := by
  refine ⟨by cbv, by cbv, ?_⟩
  rintro ⟨c, hc⟩
  cases hc

end Examples

end Config
end Masthead
