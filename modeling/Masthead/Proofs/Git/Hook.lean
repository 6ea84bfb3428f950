import Masthead.Git.Hook
import Masthead.Proofs.Workspace.Dependence

/-! Installing the script that runs before a commit. An installation that is refused changes
nothing. One that git does not take up leaves the files as any other installation does. -/

namespace Masthead.Git

theorem runOrFail_eq (arguments : List Text) (directory : Path) (w : Workspace) :
    runOrFail arguments directory w =
      ((w.git w.calls (callOf arguments directory w)).answer?.elim
        (.error (.git (.failed arguments))) .ok,
        { w with calls := w.calls ++ [callOf arguments directory w] }) := by
  rw [runOrFail, bind_of_ok _ (run_eq _ _ _)]
  cases (w.git w.calls (callOf arguments directory w)).answer? <;> rfl

namespace Hook
open Masthead.Act (OnFiles Looks)
variable {project : Path} {configPath : Option Text} {force : Bool} {w w' w₁ v : Workspace}
  {e : GitFault}

/-! The parts of an installation: writing the script, and making git use it -/

def put (project : Path) (configPath : Option Text) : Act Unit := do
  Act.makeDir (path project).parent
  Act.writeText (path project) (hookScript configPath)
  Act.makeExecutable (path project)
  Act.log .info ("Wrote pre-commit hook " ++ (path project).text)

def enabling : List Text := ["config", settingName, directoryName]

def enable (project : Path) : Act Path := do
  let _ ← runOrFail enabling project
  Act.log .info ("Set core.hooksPath to " ++ directoryName)
  return path project

theorem install_eq (project : Path) (configPath : Option Text) (force : Bool) :
    install project configPath force = (do
      let isThere ← Act.isThere (path project)
      let isOurs ← isOurs (path project)
      if isThere && !force && !isOurs then throw (.git (.foreignHook (path project).text))
      else do
        put project configPath
        enable project) := by
  simp only [install, put, enable, enabling, bind_assoc]

theorem looks_isOurs (p : Path) : Looks (isOurs p) := by
  refine (Act.looks_compositional.attempt (Act.looks_readText p)).bind fun read => ?_
  split
  · exact Act.looks_compositional.pure _
  · exact Act.looks_compositional.pure _
  · exact Act.looks_compositional.pure _
  · exact Act.looks_compositional.fail _

theorem onFiles_isOurs (p : Path) : OnFiles (isOurs p) := by
  refine (Act.onFiles_readText p).attempt_bind fun read hread => ?_
  split
  · exact .pure _
  · exact .pure _
  · exact .pure _
  · exact .fail fun e he => hread e (by rw [he])

theorem onFiles_put (project : Path) (configPath : Option Text) :
    OnFiles (put project configPath) :=
  (Act.onFiles_makeDirs _ _).bind fun _ => (Act.onFiles_writeText _ _).bind fun _ =>
    (Act.onFiles_makeExecutable _).bind fun _ => Act.onFiles_log _ _

theorem observes_enable (project : Path) : Act.Observes (enable project) := by
  refine Act.Observes.bind (fun w => ?_) fun _ => (Act.observes_log _ _).bind fun _ =>
    Act.observes_compositional.pure _
  rw [runOrFail_eq]
  exact ⟨rfl, rfl⟩

theorem enable_fst (project : Path) (w : Workspace) :
    (enable project w).1 =
      (w.git w.calls (callOf enabling project w)).answer?.elim (.error (.git (.failed enabling)))
        fun _ => .ok (path project) := by
  rw [enable, bind_apply, runOrFail_eq]
  cases (w.git w.calls (callOf enabling project w)).answer? with
  | none => rfl
  | some output =>
    obtain ⟨errors, hlog⟩ := Act.log_eq .info ("Set core.hooksPath to " ++ directoryName)
      { w with calls := w.calls ++ [callOf enabling project w] }
    exact congrArg Prod.fst (bind_of_ok _ hlog)

theorem enable_fst_eq_error {f : Fault} (h : (enable project w).1 = .error f) :
    f = .git (.failed enabling) := by
  rw [enable_fst] at h
  cases hanswer : (w.git w.calls (callOf enabling project w)).answer? with
  | none =>
    rw [hanswer] at h
    exact (Except.error.inj h).symm
  | some output =>
    rw [hanswer] at h
    cases h

/-! What an installation does -/

/-- A script has come to be where its path leads, and can be run. Nothing else has changed but that
directories have been made on the way, where nothing was. -/
structure Installed (p : Path) (script : Text) (w w' : Workspace) (place : Tree.Place) : Prop where
  leads : Act.LeadsTo p w' place (Utf8.encode script) true
  before : w.tree.at? place = none ∨ ∃ old b, w.tree.at? place = some (.file old b)
  elsewhere : ∀ q, q ≠ place →
    (w'.tree.at? q).map Tree.surface = (w.tree.at? q).map Tree.surface ∨
      w.tree.at? q = none ∧ w'.tree.Passes (Act.start p w') p.parts q ∧
        (w'.tree.at? q).map Tree.surface = some (.dir [])

theorem installed_of_put (h : put project configPath w = (.ok (), w')) :
    ∃ place, Installed (path project) (hookScript configPath) w w' place := by
  obtain ⟨_, w₁, hmake, h⟩ := bind_eq_ok h
  obtain ⟨_, w₂, hwrite, h⟩ := bind_eq_ok h
  obtain ⟨_, w₃, hrun, h⟩ := bind_eq_ok h
  have hpaved : Act.Paved (path project) w w₁ := by
    have hparent := Act.paved_makeDirs (path project).parent
      ((path project).parent.parts.length + 1) w
    rw [← Act.makeDir, hmake] at hparent
    exact hparent.of_parent
  -- the way goes on behind the directory of scripts, so that it has come to something there
  have hparts : (path project).parts = project.parts ++ directoryName :: [fileName] := by
    simp [path, Path.child]
  have hup : Tree.isUp directoryName = false := by decide
  obtain ⟨place, tree, haims, rfl, hwritten⟩ := Act.written_of_lands (fun place hway =>
    Tree.lands_behind hup (List.cons_ne_nil _ _) (by rwa [hparts] at hway)) hwrite
  obtain ⟨b, hleads⟩ := haims.written hwritten
  obtain ⟨tree', hmade, hleads', hwritten'⟩ := hleads.makeExecutable
  obtain ⟨-, rfl⟩ := Prod.mk.inj (hmade.symm.trans hrun)
  obtain ⟨errors, hlog⟩ := Act.log_eq .info ("Wrote pre-commit hook " ++ (path project).text)
    { w₁ with tree := tree' }
  obtain ⟨-, rfl⟩ := Prod.mk.inj (hlog.symm.trans h)
  refine ⟨place, hleads'.of_tree rfl rfl, ?_, fun q hq => ?_⟩
  · rcases hwritten.tree.before with hnone | ⟨old, b, hfile⟩
    · exact Or.inl (hpaved.tree.at?_none hnone)
    · exact Or.inr ⟨old, b, hpaved.tree.at?_file hfile⟩
  · have hsame := (hwritten'.tree.elsewhere q hq).trans (hwritten.tree.elsewhere q hq)
    refine (hpaved.tree q).imp hsame.trans fun ⟨hnone, hpasses, hdir⟩ =>
      ⟨hnone, ?_, hsame.trans hdir⟩
    have hstart : Act.start (path project) w = Act.start (path project) w₁ :=
      (Act.start_congr _ hpaved.cwd).symm
    rw [hstart] at hpasses
    exact hpasses.imp fun way hway => hwritten'.tree.follow_eq_ok.mpr
      (hwritten.tree.follow_eq_ok.mpr hway)

theorem Installed.of_tree {p : Path} {script : Text} {place : Tree.Place}
    (h : Installed p script w w₁ place) (htree : w'.tree = w₁.tree) (hcwd : w'.cwd = w₁.cwd) :
    Installed p script w w' place := by
  refine ⟨h.leads.of_tree htree hcwd, h.before, ?_⟩
  rw [htree, Act.start_congr p hcwd]
  exact h.elsewhere

theorem install_refused (hthere : (Act.isThere (path project) w).1 = .ok true)
    (hours : (isOurs (path project) w).1 = .ok false) :
    install project configPath false w = (.error (.git (.foreignHook (path project).text)), w) := by
  rw [install_eq, bind_of_ok _ (Prod.ext hthere ((Act.looks_isThere _).still w)),
    bind_of_ok _ (Prod.ext hours ((looks_isOurs _).still w))]
  rfl

theorem install_eq_enable {isThere ours : Bool}
    (hthere : (Act.isThere (path project) w).1 = .ok isThere)
    (hours : (isOurs (path project) w).1 = .ok ours) (hfree : (isThere && !force && !ours) = false)
    (hput : put project configPath w = (.ok (), w₁)) (htree : v.tree = w.tree)
    (hcwd : v.cwd = w.cwd) :
    ∃ v₁, v₁.tree = w₁.tree ∧ v₁.cwd = w₁.cwd ∧ v₁.git = v.git ∧
      install project configPath force v = enable project v₁ := by
  obtain ⟨hresult, hsame⟩ := (onFiles_put project configPath).same w v htree hcwd
  rw [hput] at hresult hsame
  have hv : put project configPath v = (.ok (), (put project configPath v).2) :=
    Prod.ext hresult rfl
  refine ⟨_, hsame.1, hsame.2, (onFiles_put project configPath).git v, ?_⟩
  rw [← (Act.looks_isThere _ w).2 v htree hcwd] at hthere
  rw [← (looks_isOurs _ w).2 v htree hcwd] at hours
  rw [install_eq, bind_of_ok _ (Prod.ext hthere ((Act.looks_isThere _).still v)),
    bind_of_ok _ (Prod.ext hours ((looks_isOurs _).still v)), if_neg (by simp [hfree]),
    bind_of_ok _ hv]

theorem stopped_cases (h : (install project configPath force w).1 = .error (.git e)) :
    ∃ isThere ours, (Act.isThere (path project) w).1 = .ok isThere ∧
    (isOurs (path project) w).1 = .ok ours ∧
      (isThere = true ∧ force = false ∧ ours = false ∨
        (isThere && !force && !ours) = false ∧ ∃ w₁, put project configPath w = (.ok (), w₁)) := by
  rw [install_eq, (Act.looks_isThere _).bind_fst_eq_error] at h
  rcases h with hfault | ⟨isThere, hthere, h⟩
  · exact absurd hfault ((Act.onFiles_isThere _).faults w e)
  rw [(looks_isOurs _).bind_fst_eq_error] at h
  rcases h with hfault | ⟨ours, hours, h⟩
  · exact absurd hfault ((onFiles_isOurs _).faults w e)
  refine ⟨isThere, ours, hthere, hours, ?_⟩
  cases hfree : isThere && !force && !ours with
  | true =>
    simp only [Bool.and_eq_true, Bool.not_eq_true', and_assoc] at hfree
    exact Or.inl hfree
  | false =>
    rw [if_neg (by simp [hfree]), bind_fst_eq_error] at h
    rcases h with hfault | ⟨_, hput, -⟩
    · exact absurd hfault ((onFiles_put project configPath).faults w e)
    · exact Or.inr ⟨rfl, _, Prod.ext hput rfl⟩

/-- An installation that git stops is either refused, and changes nothing, or has put the script
into place before git is asked. Then the files are those that it leaves however git answers, and
that it leaves when git answers well. -/
theorem install_stopped (h : install project configPath force w = (.error (.git e), w')) :
    e = .foreignHook (path project).text ∧ force = false ∧
    (Act.isThere (path project) w).1 = .ok true ∧
        (isOurs (path project) w).1 = .ok false ∧ w' = w ∨
      e = .failed enabling ∧
        (∃ place, Installed (path project) (hookScript configPath) w w' place) ∧
        (∀ git, (install project configPath force { w with git }).2.tree = w'.tree) ∧
        (install project configPath force { w with git := fun _ _ => .exit 0 [] }).1 =
        .ok (path project) := by
  obtain ⟨isThere, ours, hthere, hours, hcases⟩ := stopped_cases (congrArg Prod.fst h)
  rcases hcases with ⟨rfl, rfl, rfl⟩ | ⟨hfree, w₁, hput⟩
  · rw [install_refused hthere hours] at h
    cases h
    exact Or.inl ⟨rfl, rfl, hthere, hours, rfl⟩
  · right
    -- only git is left to be asked, and asking it changes no file
    obtain ⟨place, hinstalled⟩ := installed_of_put hput
    have hother (git) := install_eq_enable (v := { w with git }) hthere hours hfree hput rfl rfl
    obtain ⟨w₂, htree, hcwd, -, hrun⟩ := hother w.git
    rw [show install project configPath force w = enable project w₂ from hrun] at h
    obtain ⟨htree', hcwd'⟩ := observes_enable project w₂
    rw [h] at htree' hcwd'
    refine ⟨?_, ⟨place, hinstalled.of_tree (htree'.trans htree) (hcwd'.trans hcwd)⟩,
      fun git => ?_, ?_⟩
    · exact Fault.git.inj (enable_fst_eq_error (congrArg Prod.fst h))
    · obtain ⟨v₁, hsame, -, -, hrun⟩ := hother git
      rw [hrun, (observes_enable project v₁).1, hsame, htree', htree]
    · obtain ⟨v₁, -, -, hgit, hrun⟩ := hother fun _ _ => .exit 0 []
      rw [hrun, enable_fst, hgit]
      rfl

section Examples

def unversioned : Workspace where
  tree := .dir []
  cwd := []
  year := 2025
  git := fun _ _ => .unavailable

set_option maxRecDepth 20000 in
theorem install_stopped_unversioned :
    install ⟨[], []⟩ none false unversioned =
        (.error (.git (.failed enabling)), (install ⟨[], []⟩ none false unversioned).2) ∧
      (∃ place, Installed (path ⟨[], []⟩) (hookScript none) unversioned
        (install ⟨[], []⟩ none false unversioned).2 place) ∧
      (install ⟨[], []⟩ none false { unversioned with git := fun _ _ => .exit 0 [] }).1 =
        .ok (path ⟨[], []⟩) := by
  have hrun : install ⟨[], []⟩ none false unversioned =
      (.error (.git (.failed enabling)), (install ⟨[], []⟩ none false unversioned).2) :=
      Prod.ext (by cbv) rfl
  rcases install_stopped hrun with ⟨hfault, -⟩ | ⟨-, hinstalled, -, hwell⟩
  · cases hfault
  · exact ⟨hrun, hinstalled, hwell⟩

set_option maxRecDepth 20000 in
theorem install_leaves_script :
    (install ⟨[], []⟩ none false unversioned).1 = .error (.git (.failed enabling)) ∧
      unversioned.tree.at? [directoryName, fileName] = none ∧
      (install ⟨[], []⟩ none false unversioned).2.tree.at? [directoryName, fileName] =
        some (.file (Utf8.encode (hookScript none)) true) :=
  ⟨by cbv, rfl, by cbv⟩

end Examples

end Hook
end Masthead.Git
