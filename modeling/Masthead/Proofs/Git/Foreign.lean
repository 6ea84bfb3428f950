import Masthead.Proofs.Git.Hook
import Masthead.Proofs.Text.Containing
import Masthead.Proofs.Text.Utf8

/-! Scripts before a commit that are not ours. Installing without force and uninstalling leave them
as they are, however often they are tried. The setting that tells git where scripts are is another
matter: uninstalling looks at its value alone, and not at whose script is there. -/

namespace Masthead.Git.Hook
variable {project : Path} {w w' : Workspace} {bytes : List UInt8} {below above : List Text}
  {own : List Call → List Text}
  {git : List Call → Call → Reply} {directory : Tree.Place}

/-! Somebody else's script -/

/-- The script is a file with these bytes, which do not have our mark in them, if they are a text at
all. -/
structure Foreign (project : Path) (w : Workspace) (bytes : List UInt8) : Prop where
  leads : ∃ place b, Act.LeadsTo (path project) w place bytes b
  unmarked : ∀ text, Utf8.decode bytes = .ok text → ¬ hookMarker <:+: text

theorem Foreign.of_tree (h : Foreign project w bytes) (htree : w'.tree = w.tree)
    (hcwd : w'.cwd = w.cwd) :
    Foreign project w' bytes where
  leads := h.leads.imp fun _ hb => hb.imp fun _ hleads => hleads.of_tree htree hcwd
  unmarked := h.unmarked

theorem Foreign.isThere_eq (h : Foreign project w bytes) :
    Act.isThere (path project) w = (.ok true, w) := by
  obtain ⟨place, b, hleads⟩ := h.leads
  rw [Act.isThere_eq, Act.seen, if_neg (by simp [hleads.valid]), if_neg hleads.short, hleads.found]
  rfl

theorem Foreign.isOurs_eq (h : Foreign project w bytes) :
    isOurs (path project) w = (.ok false, w) := by
  obtain ⟨place, b, hleads⟩ := h.leads
  have hread : Act.attempt (Act.readText (path project)) w =
      (.ok (((Utf8.decode bytes).mapError Fault.encoding).map Source.normalize), w) := by
    rw [Act.attempt_apply, hleads.readText]
  rw [isOurs, bind_of_ok _ hread]
  cases hdecode : Utf8.decode bytes with
  | error fault => rfl
  | ok text =>
    -- our mark goes over no line end, and so reading the lines does not bring it about
    have hcontains : Text.contains (Source.normalize text) hookMarker = false := by
      rw [← Bool.not_eq_true, Text.contains_iff]
      exact fun hmark => h.unmarked text hdecode (Source.infix_of_normalize (by decide) hmark)
    change ((pure (Text.contains (Source.normalize text) hookMarker) : Act Bool) w) = _
    rw [hcontains]
    rfl

theorem Foreign.install_eq (h : Foreign project w bytes) (configPath : Option Text) :
    install project configPath false w = (.error (.git (.foreignHook (path project).text)), w) :=
  install_refused (congrArg Prod.fst h.isThere_eq) (congrArg Prod.fst h.isOurs_eq)

/-! Taking the setting back -/

def directoryOf (project : Path) (w : Workspace) : Tree.Place :=
  Tree.collapse (Act.start project w ++ project.parts)

theorem callOf_eq (arguments : List Text) (project : Path) (w : Workspace) :
    callOf arguments project w = ⟨arguments, directoryOf project w⟩ := rfl

def asking : List Text := ["config", "--get", settingName]

def unsetting : List Text := ["config", "--unset", settingName]

def takeBack (project : Path) : Act Unit := do
  if (← setting settingName project) = some directoryName then
    let _ ← run unsetting project
    Act.log .info "Unset core.hooksPath"

def takingBack (project : Path) (w : Workspace) : List Call :=
  callOf asking project w ::
    if valueOf (w.git w.calls (callOf asking project w)).answer? = some directoryName
    then [callOf unsetting project w] else []

theorem takeBack_eq (project : Path) (w : Workspace) :
    ∃ errors, takeBack project w =
    (.ok (), { w with calls := w.calls ++ takingBack project w, errors }) := by
  rw [takeBack, bind_of_ok _ (setting_eq _ _ _), takingBack, asking]
  split_ifs with htold
  · rw [bind_of_ok _ (run_eq _ _ _)]
    dsimp only
    rw [List.append_assoc]
    exact Act.log_eq _ _ _
  · exact ⟨w.errors, rfl⟩

def remove (project : Path) : Act Unit := do
  Act.removeFile (path project)
  Act.log .info ("Removed pre-commit hook " ++ (path project).text)
  Act.removeEmptyDir (path project).parent

theorem uninstall_eq (project : Path) :
    uninstall project = (do
      let isThere ← Act.isThere (path project)
      let isOurs ← isOurs (path project)
      let removes := isThere && isOurs
      if removes then remove project
      takeBack project
      return removes) := by
  have hback (removes : Bool) : (takeBack project >>= fun _ => pure removes : Act Bool) =
      (do
        if (← setting settingName project) = some directoryName then
          let _ ← run unsetting project
          Act.log .info "Unset core.hooksPath"
        return removes) := by
    rw [takeBack, bind_assoc]
    refine congrArg _ (funext fun told => ?_)
    split_ifs
    · simp only [bind_assoc]
    · exact pure_bind _ _
  -- what follows a choice stands in each of its branches
  simp only [hback, uninstall, remove]
  refine congrArg _ (funext fun isThere => congrArg _ (funext fun isOurs => ?_))
  split_ifs
  · simp only [bind_assoc, unsetting]
  · rfl

theorem Foreign.uninstall_eq (h : Foreign project w bytes) :
    ∃ errors, uninstall project w =
    (.ok false, { w with calls := w.calls ++ takingBack project w, errors }) := by
  obtain ⟨errors, hback⟩ := takeBack_eq project w
  refine ⟨errors, ?_⟩
  rw [Hook.uninstall_eq, bind_of_ok _ h.isThere_eq, bind_of_ok _ h.isOurs_eq]
  exact bind_of_ok _ hback

/-! How git keeps the setting -/

/-- How git answers in a directory about the setting. The repository has values of its own for it;
there may be values below them, which hold for every repository, and above them, which hold for one
occasion. The last of all is told. Telling it changes nothing. A repository forgets the one value
that it has, but not one of several. -/
structure Keeps (git : List Call → Call → Reply) (directory : Tree.Place) (below above : List Text)
    (own : List Call → List Text) : Prop where
  told : ∀ calls value, (below ++ own calls ++ above).getLast? = some value →
    git calls ⟨asking, directory⟩ = .exit 0 (value ++ ['\n'])
  untold : ∀ calls output, below ++ own calls ++ above = [] →
    git calls ⟨asking, directory⟩ ≠ .exit 0 output
  own_asking : ∀ calls, own (calls ++ [⟨asking, directory⟩]) = own calls
  own_unsetting : ∀ calls, own (calls ++ [⟨unsetting, directory⟩]) = if (own calls).length =
    1 then [] else own calls

theorem valueOf_some_eq_iff {s v : Text} (hv : v ≠ []) :
    valueOf (some s) = some v ↔ Text.strip s = v := by
  cases s with
  | nil => exact iff_of_false (by rintro ⟨⟩) hv.symm
  | cons c s => exact Option.some_inj

theorem Keeps.valueOf_eq_iff (h : Keeps git directory below above own) (calls : List Call) :
    valueOf (git calls ⟨asking, directory⟩).answer? = some directoryName ↔
      (below ++ own calls ++ above).getLast?.map Text.strip = some directoryName := by
  cases hlast : (below ++ own calls ++ above).getLast? with
  | none =>
    have hsilent : (git calls ⟨asking, directory⟩).answer? = none := by
      unfold Reply.answer?
      split
      · next hreply => exact absurd hreply (h.untold calls _ (List.getLast?_eq_none_iff.mp hlast))
      · rfl
    rw [hsilent]
    exact iff_of_false (by rintro ⟨⟩) (by rintro ⟨⟩)
  | some value =>
    have hblank : Text.Blank ['\n'] := Text.forall_mem_of_all (by decide)
    rw [h.told calls value hlast, Reply.answer?, valueOf_some_eq_iff (by decide),
      Text.stripRight_append_blank hblank, Text.strip_stripRight, Option.map_some, Option.some_inj]

def Reclaimed (below own above : List Text) : Prop :=
  (below ++ own ++ above).getLast?.map Text.strip = some directoryName ∧ own.length = 1

instance (below own above : List Text) : Decidable (Reclaimed below own above) :=
  inferInstanceAs (Decidable (_ ∧ _))

/-- What is left of a repository's own values when the setting is taken back. -/
def reclaim (below own above : List Text) : List Text :=
  if Reclaimed below own above then [] else own

theorem reclaim_reclaim (below own above : List Text) :
    reclaim below (reclaim below own above) above = reclaim below own above := by
  by_cases h : Reclaimed below own above
  · rw [reclaim, reclaim, if_pos h, ite_self]
  · rw [reclaim, reclaim, if_neg h, if_neg h]

theorem Keeps.own_takingBack (h : Keeps w.git (directoryOf project w) below above own) :
    own (w.calls ++ takingBack project w) = reclaim below (own w.calls) above := by
  rw [takingBack, callOf_eq, callOf_eq]
  by_cases htold : valueOf (w.git w.calls ⟨asking, directoryOf project w⟩).answer? =
    some directoryName
  · have hreclaimed : Reclaimed below (own w.calls) above ↔ (own w.calls).length = 1 :=
      and_iff_right ((h.valueOf_eq_iff _).mp htold)
    rw [if_pos htold, List.append_cons, h.own_unsetting, h.own_asking, reclaim]
    exact if_congr hreclaimed.symm rfl rfl
  · have hkept : ¬ Reclaimed below (own w.calls) above := fun hreclaimed =>
      htold ((h.valueOf_eq_iff _).mpr hreclaimed.1)
    rw [if_neg htold, h.own_asking, reclaim, if_neg hkept]

/-! Any number of installations and removals -/

inductive Step where
  | installing (configPath : Option Text)
  | uninstalling
deriving DecidableEq

def Step.perform (project : Path) : Step → Workspace → Workspace
  | .installing configPath, w => (install project configPath false w).2
  | .uninstalling, w => (uninstall project w).2

def perform (project : Path) (steps : List Step) (w : Workspace) : Workspace :=
  steps.foldl (fun w step => step.perform project w) w

/-- Neither the files have changed, nor where the program and git run, nor how git answers. -/
structure Undisturbed (w w' : Workspace) : Prop where
  tree : w'.tree = w.tree
  cwd : w'.cwd = w.cwd
  git : w'.git = w.git

theorem Undisturbed.trans {u v w : Workspace} (h : Undisturbed u v) (h' : Undisturbed v w) :
    Undisturbed u w :=
  ⟨h'.tree.trans h.tree, h'.cwd.trans h.cwd, h'.git.trans h.git⟩

theorem Undisturbed.keeps (h : Undisturbed w w')
    (hgit : Keeps w.git (directoryOf project w) below above own) :
    Keeps w'.git (directoryOf project w') below above own := by
  rw [h.git, directoryOf, Act.start_congr project h.cwd]
  exact hgit

def Step.asked (project : Path) (w : Workspace) : Step → List Call
  | .installing _ => []
  | .uninstalling => takingBack project w

theorem Step.perform_eq (step : Step) (h : Foreign project w bytes) :
    ∃ errors,
      step.perform project w = { w with calls := w.calls ++ step.asked project w, errors } := by
  cases step with
  | installing configPath => exact ⟨w.errors, by rw [perform, h.install_eq, asked, List.append_nil]⟩
  | uninstalling =>
    obtain ⟨errors, hrun⟩ := h.uninstall_eq
    exact ⟨errors, by rw [perform, hrun, asked]⟩

theorem Step.undisturbed (step : Step) (h : Foreign project w bytes) :
    Undisturbed w (step.perform project w) := by
  obtain ⟨errors, hrun⟩ := step.perform_eq h
  rw [hrun]
  exact ⟨rfl, rfl, rfl⟩

theorem Step.own_perform (step : Step) (h : Foreign project w bytes)
    (hgit : Keeps w.git (directoryOf project w) below above own) :
    own (step.perform project w).calls =
      if step = .uninstalling then reclaim below (own w.calls) above else own w.calls := by
  obtain ⟨errors, hrun⟩ := step.perform_eq h
  rw [hrun]
  cases step with
  | installing configPath => rw [if_neg (by rintro ⟨⟩), asked, List.append_nil]
  | uninstalling => exact hgit.own_takingBack

theorem undisturbed_perform (steps : List Step) (h : Foreign project w bytes) :
    Undisturbed w (perform project steps w) := by
  induction steps generalizing w with
  | nil => exact ⟨rfl, rfl, rfl⟩
  | cons step steps ih =>
    have hstep := step.undisturbed h
    exact hstep.trans (ih (h.of_tree hstep.tree hstep.cwd))

theorem own_perform (steps : List Step) (h : Foreign project w bytes)
    (hgit : Keeps w.git (directoryOf project w) below above own) :
    own (perform project steps w).calls =
      if .uninstalling ∈ steps then reclaim below (own w.calls) above else own w.calls := by
  induction steps generalizing w with
  | nil => exact (if_neg List.not_mem_nil).symm
  | cons step steps ih =>
    have hstep := step.undisturbed h
    refine (ih (h.of_tree hstep.tree hstep.cwd) (hstep.keeps hgit)).trans ?_
    rw [step.own_perform h hgit]
    -- what one removal leaves, the later ones leave as well
    by_cases hhere : step = .uninstalling
    · rw [if_pos hhere, if_pos (List.mem_cons.mpr (Or.inl hhere.symm)), reclaim_reclaim, ite_self]
    · rw [if_neg hhere]
      exact if_congr (by rw [List.mem_cons, or_iff_right (Ne.symm hhere)]) rfl rfl

/-- As long as somebody else's script is there, no file changes, and the script stays in place with
all its bytes. The setting stays as well, but for one case. Where our directory is the value that
counts, and the repository has no other value of its own, the first removal takes it away, and
nothing brings it back. -/
theorem perform_foreign (steps : List Step) (h : Foreign project w bytes)
    (hgit : Keeps w.git (directoryOf project w) below above own) :
    (perform project steps w).tree = w.tree ∧ Foreign project (perform project steps w) bytes ∧
      own (perform project steps w).calls =
        if .uninstalling ∈ steps then reclaim below (own w.calls) above else own w.calls := by
  have hsame := undisturbed_perform steps h
  exact ⟨hsame.tree, h.of_tree hsame.tree hsame.cwd, own_perform steps h hgit⟩

section Examples

def plainScript : Text := "#!/bin/sh\n".toList

def ownLeft (calls : List Call) : List Text :=
  if ⟨unsetting, []⟩ ∈ calls then [] else [directoryName]

def answering (calls : List Call) (call : Call) : Reply :=
  if call = ⟨asking, []⟩ then
    match (ownLeft calls).getLast? with
    | some value => .exit 0 (value ++ ['\n'])
    | none => .exit 1 []
  else if ownLeft calls = [] then .exit 5 [] else .exit 0 []

def repository : Workspace where
  tree := .dir [(directoryName, .dir [(fileName, .file (Utf8.encode plainScript) true)])]
  cwd := []
  year := 2025
  git := answering

theorem foreign_repository : Foreign ⟨[], []⟩ repository (Utf8.encode plainScript) where
  leads := ⟨[directoryName, fileName], true, Act.Aims.leadsTo ⟨by decide, by decide, by cbv⟩ rfl⟩
  unmarked text hdecode := by
    rw [Utf8.decode_encode] at hdecode
    obtain rfl := Except.ok.inj hdecode
    rw [← Text.contains_iff]
    decide

theorem keeps_repository :
    Keeps repository.git (directoryOf ⟨[], []⟩ repository) [] [] ownLeft where
  told calls value hlast := by
    rw [List.nil_append, List.append_nil] at hlast
    change answering calls ⟨asking, []⟩ = _
    rw [answering, if_pos rfl, hlast]
  untold calls output hnone := by
    rw [List.nil_append, List.append_nil] at hnone
    change answering calls ⟨asking, []⟩ ≠ _
    rw [answering, if_pos rfl, hnone]
    rintro ⟨⟩
  own_asking calls := by
    have hother : ⟨unsetting, []⟩ ∉ [(⟨asking, []⟩ : Call)] := by decide
    exact if_congr (by rw [List.mem_append]; exact or_iff_left hother) rfl rfl
  own_unsetting calls := by
    have hunset : ownLeft (calls ++ [⟨unsetting, []⟩]) = [] := if_pos List.mem_concat_self
    refine hunset.trans ?_
    by_cases hbefore : ⟨unsetting, []⟩ ∈ calls
    · rw [ownLeft, if_pos hbefore, ite_self]
    · rw [ownLeft, if_neg hbefore]
      rfl

theorem perform_foreign_reclaims :
    Foreign ⟨[], []⟩ repository (Utf8.encode plainScript) ∧
      Keeps repository.git (directoryOf ⟨[], []⟩ repository) [] [] ownLeft ∧
      (perform ⟨[], []⟩ [.installing none, .uninstalling, .installing none] repository).tree =
      repository.tree ∧
      ownLeft (perform ⟨[], []⟩ [.installing none, .uninstalling, .installing none]
        repository).calls = [] := by
  obtain ⟨htree, -, hown⟩ :=
    perform_foreign [.installing none, .uninstalling, .installing none] foreign_repository
      keeps_repository
  exact ⟨foreign_repository, keeps_repository, htree, hown.trans (by decide)⟩

/-- A removal that finds somebody else's script takes away the setting that makes git run it. -/
theorem uninstall_disarms_foreign :
    Foreign ⟨[], []⟩ repository (Utf8.encode plainScript) ∧
      Keeps repository.git (directoryOf ⟨[], []⟩ repository) [] [] ownLeft ∧
      (setting settingName ⟨[], []⟩ repository).1 = .ok (some directoryName) ∧
      (setting settingName ⟨[], []⟩ (perform ⟨[], []⟩ [.uninstalling] repository)).1 =
      .ok none := by
  refine ⟨foreign_repository, keeps_repository, by cbv, ?_⟩
  have hown : ownLeft (perform ⟨[], []⟩ [.uninstalling] repository).calls = [] :=
    (own_perform [.uninstalling] foreign_repository keeps_repository).trans (by decide)
  have hsame := undisturbed_perform [.uninstalling] foreign_repository
  rw [setting_fst, hsame.git, callOf_eq, directoryOf, Act.start_congr _ hsame.cwd]
  change Except.ok (valueOf (answering _ ⟨asking, []⟩).answer?) = _
  rw [answering, if_pos rfl, hown]
  rfl

end Examples

end Masthead.Git.Hook
