import Masthead.Config.Discovery
import Masthead.Proofs.Workspace.Agreement

/-! Finding and loading a configuration. Files are looked for and read on the way, git is asked,
remarks are logged; no file changes. -/

namespace Masthead

namespace Act
variable {P : ∀ {α : Type}, Act α → Prop} {α β : Type}

theorem Compositional.mapM (hP : Compositional P) {f : α → Act β} (hf : ∀ a, P (f a)) (l : List α) :
    P (l.mapM f) := by
  induction l with
  | nil => exact hP.pure _
  | cons a l ih =>
    rw [List.mapM_cons]
    exact hP.bind (hf a) fun b => hP.bind ih fun bs => hP.pure _

theorem Compositional.forM (hP : Compositional P) {f : α → Act PUnit} (hf : ∀ a, P (f a))
    (l : List α) :
    P (l.forM f) := by
  induction l with
  | nil => exact hP.pure _
  | cons a l ih =>
    rw [List.forM_eq_forM, List.forM_cons]
    exact hP.bind (hf a) fun _ => ih

/-! Looking at files -/

theorem observes_get : Observes (get : Act Workspace) := fun _ => ⟨rfl, rfl⟩

theorem start_congr {v w : Workspace} (p : Path) (h : v.cwd = w.cwd) : start p v = start p w := by
  rw [start, start, h]

theorem looks_find (p : Path) : Looks (find p) := by
  intro w
  rw [find_eq]
  refine ⟨by split_ifs <;> rfl, fun v htree hcwd => ?_⟩
  rw [find_eq, htree, start_congr p hcwd]
  split_ifs <;> rfl

theorem realPlace_eq (p : Path) (w : Workspace) :
    realPlace p w = (.ok (w.tree.real (start p w) p.parts), w) := by
  rw [realPlace, bind_of_ok _ (show (get : Act Workspace) w = (.ok w, w) from rfl),
    bind_of_ok _ (startOf_eq _ _)]
  rfl

theorem looks_realPlace (p : Path) : Looks (realPlace p) := by
  intro w
  refine ⟨by rw [realPlace_eq], fun v htree hcwd => ?_⟩
  rw [realPlace_eq, realPlace_eq, htree, start_congr p hcwd]

theorem looks_lookUp (p : Path) : Looks (lookUp p) := by
  rw [lookUp]
  split_ifs
  · exact looks_compositional.pure _
  · refine (looks_find p).bind fun r => ?_
    rcases r with e | ⟨place, t⟩
    · cases e <;> first | exact looks_compositional.pure _ | exact looks_compositional.fail _
    · exact looks_compositional.pure _

theorem looks_isFile (p : Path) : Looks (isFile p) :=
  ((looks_lookUp p).bind fun _ => looks_compositional.pure _).bind fun _ =>
    looks_compositional.pure _

theorem looks_isThere (p : Path) : Looks (isThere p) :=
  ((looks_lookUp p).bind fun _ => looks_compositional.pure _).bind fun _ =>
    looks_compositional.pure _

theorem looks_resolve (p : Path) : Looks (resolve p) := by
  rw [resolve]
  split_ifs
  · exact looks_compositional.fail _
  · refine (looks_realPlace p).bind fun place => ?_
    refine (looks_find _).bind fun r => ?_
    split
    · exact looks_compositional.fail _
    · exact looks_compositional.pure _

theorem resolve_fst (p : Path) (w : Workspace) :
    (resolve p w).1 =
      if p.hasNull then .error .nullByte
      else match (find (ofPlace (w.tree.real (start p w) p.parts)) w).1 with
        | .error e => .error e
        | .ok (.error .tooManyLinks) =>
          .error (.linkLoop (ofPlace (w.tree.real (start p w) p.parts)).text)
        | .ok _ => .ok (ofPlace (w.tree.real (start p w) p.parts)) := by
  rw [resolve]
  split_ifs
  · rfl
  · rw [bind_of_ok _ (realPlace_eq p w), bind_apply]
    rcases find (ofPlace (w.tree.real (start p w) p.parts)) w with ⟨_ | _ | found, w'⟩
    · rfl
    · rename_i cause
      cases cause <;> rfl
    · rfl

theorem looks_readText (p : Path) : Looks (readText p) :=
  ((looks_readBytes p).bind fun _ => looks_compositional.ofExcept _ _).bind fun _ =>
    looks_compositional.pure _

theorem log_eq (level : Log.Level) (message : Text) (w : Workspace) :
    ∃ errors, log level message w = (.ok (), { w with errors }) := by
  rw [log, bind_of_ok _ (show (get : Act Workspace) w = (.ok w, w) from rfl)]
  split_ifs <;> exact ⟨_, rfl⟩

theorem observes_log (level : Log.Level) (message : Text) : Observes (log level message) := by
  intro w
  obtain ⟨errors, hlog⟩ := log_eq level message w
  rw [hlog]
  exact ⟨rfl, rfl⟩

end Act

namespace Git
open Act (Compositional)
variable {P : ∀ {α : Type}, Act α → Prop}

theorem setting_of_run (hP : Compositional P)
    (hrun : ∀ arguments directory, P (run arguments directory)) (key : Text) (directory : Path) :
    P (setting key directory) := by
  refine hP.bind (hrun _ _) fun output => ?_
  rcases output with _ | _ | ⟨c, output⟩ <;> exact hP.pure _

theorem user_of_run (hP : Compositional P)
    (hrun : ∀ arguments directory, P (run arguments directory)) (directory : Path) :
    P (user directory) := by
  refine hP.bind (setting_of_run hP hrun _ _) fun name => hP.bind (setting_of_run hP hrun _ _)
    fun email => ?_
  split <;> exact hP.pure _

theorem root_of_run (hP : Compositional P)
    (hrun : ∀ arguments directory, P (run arguments directory)) (directory : Path) :
    P (root directory) := by
  refine hP.bind (hrun _ _) fun output => ?_
  rcases output with _ | _ | ⟨c, output⟩ <;> exact hP.pure _

theorem staged_of_run (hP : Compositional P)
    (hrun : ∀ arguments directory, P (run arguments directory)) (kinds : Text) (directory : Path) :
    P (staged kinds directory) :=
  hP.bind (hrun _ _) fun _ => hP.pure _

end Git

namespace Config
open Act (Looks Observes looks_compositional observes_compositional)

theorem looks_reading (p : Path) {α : Type} {act : Act α} (h : Looks act) :
    Looks (reading p act) := by
  refine (looks_compositional.attempt h).bind fun r => ?_
  rcases r with e | a
  · cases e <;> exact looks_compositional.fail _
  · exact looks_compositional.pure _

theorem looks_readText (p : Path) : Looks (readText p) := looks_reading p (Act.looks_readText p)

theorem looks_startDirectory (start : Path) : Looks (startDirectory start) :=
  (Act.looks_resolve start).bind fun _ => (Act.looks_isFile _).bind fun _ => by
    split_ifs <;> exact looks_compositional.pure _

theorem looks_loadToml [Toml.Library] (p : Path) : Looks (loadToml p) :=
  (looks_readText p).bind fun _ => looks_compositional.ofExcept _ _

theorem looks_loadJson [Limits] (p : Path) : Looks (loadJson p) := by
  refine (looks_readText p).bind fun s => (looks_compositional.ofExcept _ _).bind fun v => ?_
  split <;> exact looks_compositional.pure _

section
variable [Limits] [Toml.Library]

theorem looks_loaded (p : Path) : Looks (loaded p) := by
  rw [loaded]
  split_ifs
  · exact (looks_loadJson p).bind fun _ => looks_compositional.pure _
  · exact (looks_loadToml p).bind fun _ => looks_compositional.pure _

theorem looks_read (p : Path) (required : Bool) : Looks (read p required) := by
  refine (Act.looks_isFile p).bind fun isFile => ?_
  split_ifs
  · exact (looks_loaded p).bind fun _ => looks_compositional.pure _
  · exact looks_compositional.fail _
  · exact looks_compositional.pure _

theorem looks_firstIn (directory : Path) (names : List Text) : Looks (firstIn directory names) := by
  induction names with
  | nil => exact looks_compositional.pure _
  | cons name names ih =>
    refine (looks_read _ _).bind fun found => ?_
    cases found with
    | none => exact ih
    | some found => exact looks_compositional.pure _

theorem looks_firstAmong (directories : List Path) : Looks (firstAmong directories) := by
  induction directories with
  | nil => exact looks_compositional.pure _
  | cons directory above ih =>
    refine (looks_firstIn _ _).bind fun found => ?_
    cases found with
    | none => exact ih
    | some found => exact looks_compositional.pure _

theorem looks_discover (start : Path) : Looks (discover start) :=
  (looks_startDirectory start).bind fun _ => looks_firstAmong _

theorem looks_licenseIn (p : Path) : Looks (licenseIn p) := by
  refine (Act.looks_isFile p).bind fun isFile => ?_
  split_ifs
  · refine (looks_compositional.attempt (looks_loaded p)).bind fun r => ?_
    rcases r with e | t
    · cases e <;> first | exact looks_compositional.pure _ | exact looks_compositional.fail _
    · exact looks_compositional.pure _
  · exact looks_compositional.pure _

theorem looks_licenseAmong (paths : List Path) : Looks (licenseAmong paths) := by
  induction paths with
  | nil => exact looks_compositional.pure _
  | cons p paths ih =>
    refine (looks_licenseIn p).bind fun license => ?_
    cases license with
    | none => exact ih
    | some license => exact looks_compositional.pure _

theorem looks_detectLicense (start : Path) : Looks (detectLicense start) :=
  (looks_startDirectory start).bind fun _ => looks_licenseAmong _

end

theorem looks_draft (f : Found) : Looks f.draft := by
  rw [Found.draft]
  cases f.table with
  | none => exact looks_compositional.fail _
  | some t => exact looks_compositional.ofExcept _ _

theorem looks_withLicense (d : Draft) (license : Points) : Looks (withLicense d license) := by
  rw [withLicense]
  split
  · exact looks_compositional.pure _
  · exact looks_compositional.fail _

theorem observes_logNotes (notes : List Diagnostic) : Observes (logNotes notes) :=
  observes_compositional.forM (fun _ => Act.observes_log _ _) notes

theorem observes_freeze (d : Draft) : Observes (freeze d) := by
  refine (observes_compositional.forM (fun (numbers, notes) => ?_) d.remarks).bind fun _ =>
    observes_compositional.pure _
  dsimp only
  split_ifs
  · exact observes_logNotes notes
  · exact observes_compositional.fail _

theorem observes_load [Limits] [Toml.Library] (path : Option Path) (start : Path)
    (overrides : Draft) (usesGit : Bool) : Observes (load path start overrides usesGit) := by
  have hP := observes_compositional
  refine (Act.looks_resolve start).observes.bind fun base => ?_
  extract_lets ending search
  have hending : ∀ d, Observes (ending d) := observes_freeze
  have hsearch : ∀ found, Observes (search found) := by
    intro found
    unfold search
    extract_lets base fillEmail layered
    have hemail : ∀ d, Observes (fillEmail d) := by
      intro d
      unfold fillEmail
      split_ifs
      · refine (Git.setting_of_run hP Git.observes_run _ _).bind fun email => ?_
        split <;> exact (hP.pure _).bind hending
      · exact (hP.pure _).bind hending
    have hlicense : ∀ d license, Observes (withLicense d license >>= fillEmail) := fun d license =>
      (looks_withLicense d license).observes.bind hemail
    have hlayered : ∀ file, Observes (layered file) := by
      intro file
      refine (observes_logNotes file.diagnostics).bind fun _ => ?_
      extract_lets d
      split_ifs
      · split
        · exact hlicense _ _
        · refine (looks_detectLicense base).observes.bind fun license => ?_
          split
          · exact hlicense _ _
          · exact (hP.pure _).bind hemail
      · exact (hP.pure _).bind hemail
    cases found with
    | none => exact (hP.pure _).bind hlayered
    | some found => exact (looks_draft found).observes.bind hlayered
  cases path with
  | none => exact (looks_discover base).observes.bind hsearch
  | some p => exact (looks_read p true).observes.bind hsearch

end Config
end Masthead
