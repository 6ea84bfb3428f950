import Masthead.Proofs.Command.Running
import Masthead.Proofs.Fix.Course
import Masthead.Proofs.Workspace.Discovery
import Mathlib.Data.List.Nodup

/-! What a fix settles before its first file: the arguments, the configuration, the files and the
fixer. No file changes on the way, and a dry run comes to the same as the run that writes. -/

namespace Masthead.Command.Fix
open Run (Observes)

/-- What is settled before the first file is fixed. -/
structure Job where
  mode : Mode
  fixer : Fixer
  base : Path
  files : List Text

def Job.dry (job : Job) : Job := { job with mode := { job.mode with isDry := true } }

abbrev withDry : Arguments → Arguments := Arguments.withFlag "--dry-run"

def modeOf (a : Arguments) : Mode := ⟨a.has "--dry-run", a.has "--diff", a.has "--staged"⟩

theorem modeOf_withDry (a : Arguments) : modeOf (withDry a) = { modeOf a with isDry := true } := by
  have hdiff : (withDry a).has "--diff" = a.has "--diff" := Arguments.has_withFlag (by decide)
  have hstaged : (withDry a).has "--staged" = a.has "--staged" := Arguments.has_withFlag (by decide)
  rw [modeOf, Arguments.has_withFlag_self, hdiff, hstaged]
  rfl

/-! What needs no terminal -/

section Selection
variable {w w' : Workspace}

theorem observes_selection (m : Mode) (config : Config) (paths : List Text) :
    Observes (selection m config paths) := by
  have hP := Act.observes_compositional
  rw [selection]
  split_ifs
  · refine (Run.observes_ofAct (Git.root_of_run hP Git.observes_run here)).bind fun root => ?_
    cases root with
    | none => exact Run.observes_stop _
    | some root =>
      exact (Run.observes_ofAct (Git.staged_of_run hP Git.observes_run _ root)).bind fun _ =>
        Run.observes_pure _
  · refine (Run.observes_ofAct (Discovery.observes_discover _ _ _ _)).bind fun files => ?_
    exact Observes.bind (fun _ => ⟨rfl, rfl⟩) fun _ => Run.observes_pure _

theorem selection_eq_ok {m : Mode} (hm : m.isStaged = false) (hw : w.IsPlain) {config : Config}
    {paths : List Text} (hpaths : ∀ path ∈ paths, ∀ part ∈ (Path.ofText path).parts,
      Tree.isUp part = false) {base : Path}
    {files : List Text} (h : selection m config paths w = (.ok (base, files), w')) :
    base = Act.ofPlace w.cwd ∧ files.Nodup ∧ ∀ path ∈ files, Discovery.IsReported w.cwd path := by
  rw [selection, hm] at h
  obtain ⟨found, w₁, hfound, hrest⟩ := bind_eq_ok h
  have hcwd := (Discovery.observes_discover paths config.includes config.excludes here w).2
  rcases hd : Discovery.discover paths config.includes config.excludes here w with ⟨e | found', w₂⟩
  · have hfail : Run.ofAct (Discovery.discover paths config.includes config.excludes here) w =
      (.error (.fault e), w₂) := by
      rw [Run.ofAct, hd]
    cases hfail.symm.trans hfound
  · have hdone : Run.ofAct (Discovery.discover paths config.includes config.excludes here) w =
      (.ok found', w₂) := by
      rw [Run.ofAct, hd]
    cases hdone.symm.trans hfound
    cases hrest
    rw [hd] at hcwd
    exact ⟨congrArg Act.ofPlace hcwd, Discovery.discover_eq_ok hw hpaths hd⟩

theorem isPlain_of_observes {α : Type} {x : Run α} {r : Except Stop α} (hw : w.IsPlain)
    (hx : Observes x) (h : x w = (r, w')) : w'.IsPlain ∧ w'.cwd = w.cwd := by
  have hsame := hx w
  rw [h] at hsame
  obtain ⟨htree, hcwd⟩ : w'.tree = w.tree ∧ w'.cwd = w.cwd := hsame
  exact ⟨⟨htree ▸ hw.linkless, htree ▸ hw.named, hcwd ▸ hw.inNamed⟩, hcwd⟩

end Selection

/-! What git knows, and what is said -/

section Telling
variable [CommandLine] {c : Console} {w v w' : Workspace}

def announce (c : Console) (m : Mode) (files : List Text) : Run Unit := do
  if 0 < c.verbosity then
    c.say ("Found " ++ Terminal.plural files.length "file" ++ " to process")
    if m.isDry then c.say "(dry run - no changes will be made)"

def known (c : Console) (config : Config) (base : Path) : Run Fixer := do
  let user ← Git.user base
  if user.isNone ∧ 0 < c.verbosity then c.warn "Warning: Could not determine git user"
  return ⟨config, user, (← get).year⟩

def summarize (c : Console) (steps : List Step) : Run Unit := do
  if 0 < c.verbosity ∨ 0 < steps.countP (·.outcome.action.modifies) then tellCounts c steps

def conclude (c : Console) (m : Mode) (steps : List Step) : Run Unit := do
  summarize c steps
  match steps.findSome? (·.code) with
  | some code => Run.stop (.exit code)
  | none => if m.isDry ∧ 0 < steps.countP (·.outcome.action.modifies)
      then Run.stop (.exit wouldChange)

def settle (c : Console) (m : Mode) (config : Config) (base : Path) (files : List Text) :
    Run Job := do
  announce c m files
  let f ← known c config base
  return ⟨m, f, base, files⟩

theorem announce_eq (c : Console) (m : Mode) (files : List Text) (w : Workspace) :
    ∃ output, announce c m files w = (.ok (), { w with output }) := by
  unfold announce
  split_ifs <;> exact ⟨_, rfl⟩

theorem observes_announce (c : Console) (m : Mode) (files : List Text) :
    Observes (announce c m files) := by
  intro w
  obtain ⟨output, h⟩ := announce_eq c m files w
  rw [h]
  exact ⟨rfl, rfl⟩

theorem known_of_error {config : Config} {base : Path} {e : Fault}
    (h : Git.user base w = (.error e, w')) :
    known c config base w = (.error (.fault e), w') := by
  rw [known, bind_apply, show (liftM (Git.user base) : Run _) w =
    Run.ofAct (Git.user base) w from rfl, Run.ofAct, h]

theorem known_of_ok (c : Console) (config : Config) {base : Path} {user : Option Contributor}
    (h : Git.user base w = (.ok user, w')) :
    ∃ errors, known c config base w = (.ok ⟨config, user, w'.year⟩, { w' with errors }) := by
  have huser : (liftM (Git.user base) : Run (Option Contributor)) w = (.ok user, w') := by
    rw [show (liftM (Git.user base) : Run _) w = Run.ofAct (Git.user base) w from rfl, Run.ofAct, h]
  rw [known, bind_of_ok _ huser]
  dsimp only
  split_ifs <;> exact ⟨_, rfl⟩

theorem known_agrees {seen : Tree.Place → Prop} (c : Console) (config : Config) (base : Path)
    (h : Act.Agrees seen w v) :
    (known c config base w).1 = (known c config base v).1 ∧
      Act.Agrees seen (known c config base w).2 (known c config base v).2 := by
  obtain ⟨hsame, hagree⟩ := Git.user_of_run (Act.seesOnly_compositional seen)
    Git.seesOnly_run base w v h
  rcases hw : Git.user base w with ⟨r, w₁⟩
  rcases hv : Git.user base v with ⟨r', v₁⟩
  rw [hw, hv] at hsame hagree
  obtain rfl : r = r' := hsame
  cases r with
  | error e =>
    rw [known_of_error hw, known_of_error hv]
    exact ⟨rfl, hagree⟩
  | ok user =>
    obtain ⟨errors, hw⟩ := known_of_ok c config hw
    obtain ⟨errors', hv⟩ := known_of_ok c config hv
    have hyear : w₁.year = v₁.year := hagree.year
    rw [hw, hv]
    exact ⟨by rw [hyear], hagree.said _ _ _ _⟩

theorem observes_known (c : Console) (config : Config) (base : Path) :
    Observes (known c config base) := by
  intro w
  have huser := Git.user_of_run Act.observes_compositional Git.observes_run base w
  rcases hw : Git.user base w with ⟨e | user, w₁⟩ <;> rw [hw] at huser
  · rw [known_of_error hw]
    exact huser
  · obtain ⟨errors, hw⟩ := known_of_ok c config hw
    rw [hw]
    exact huser

theorem observes_settle (c : Console) (m : Mode) (config : Config) (base : Path)
    (files : List Text) :
    Observes (settle c m config base files) :=
  (observes_announce _ _ _).bind fun _ => (observes_known _ _ _).bind fun _ => Run.observes_pure _

theorem settle_dry {seen : Tree.Place → Prop} (c : Console) (m : Mode) (config : Config)
    (base : Path) (files : List Text) (h : Act.Agrees seen w v) :
    (settle c { m with isDry := true } config base files v).1 =
    (settle c m config base files w).1.map Job.dry ∧
      Act.Agrees seen (settle c m config base files w).2
        (settle c { m with isDry := true } config base files v).2 := by
  -- a dry run may say more before its first file, and the user is asked of git after that
  obtain ⟨output, hw⟩ := announce_eq c m files w
  obtain ⟨output', hv⟩ := announce_eq c { m with isDry := true } files v
  obtain ⟨hsame, hagree⟩ := known_agrees c config base (h.said output output' w.errors v.errors)
  rw [settle, settle, bind_of_ok _ hw, bind_of_ok _ hv, bind_apply, bind_apply]
  rcases hkw : known c config base { w with output } with ⟨r, w₁⟩
  rcases hkv : known c config base { v with output := output' } with ⟨r', v₁⟩
  rw [hkw, hkv] at hsame hagree
  obtain rfl : r = r' := hsame
  cases r with
  | error s => exact ⟨rfl, hagree⟩
  | ok f => exact ⟨rfl, hagree⟩

end Telling

/-! A run, part by part -/

theorem ite_then {p : Prop} [Decidable p] {α : Type} (x : Run Unit) (k : Run α) :
    (if p then x >>= fun _ => k else k) = (if p then x else pure ()) >>= fun _ => k := by
  split_ifs
  · rfl
  · rw [pure_bind]

section Prepare
variable [Limits] [Toml.Library] [Painter] [CommandLine]
variable {c : Console} {w w' : Workspace} {arguments : List Text} {job : Job}

def found (c : Console) (choice : Choice) (m : Mode) (paths : List Text) :
    Run (Config × Path × List Text) := do
  if m.isStaged && !paths.isEmpty then Run.fail (.misuse .stagedWithPaths)
  let config ← loadConfig c choice here
  let files ← selection m config paths
  return (config, files)

theorem run_eq (c : Console) (choice : Choice) (m : Mode) (paths : List Text) :
    run c choice m paths = (do
      let (config, base, files) ← found c choice m paths
      announce c m files
      let f ← known c config base
      let steps ← Run.ofAct (files.mapM (step c m f base))
      conclude c m steps) := by
  have hlift {α : Type} (act : Act α) : (liftM act : Run α) = Run.ofAct act := rfl
  by_cases hloud : 0 < c.verbosity
  · simp only [run, found, announce, known, if_pos hloud, hlift, ite_then, bind_assoc, pure_bind]
    rfl
  · simp only [run, found, announce, known, if_neg hloud, hlift, ite_then, bind_assoc, pure_bind]
    rfl

def sought (c : Console) (a : Arguments) : Run (Config × Path × List Text) :=
  found c (choice a) (modeOf a) a.rest

def prepare (c : Console) (arguments : List Text) : Run Job := do
  let a ← parsed (Verb.interface .fix) arguments
  let (config, base, files) ← sought c a
  settle c (modeOf a) config base files

theorem verb_run_eq (c : Console) (arguments : List Text) :
    Verb.run c .fix arguments = (do
      let job ← prepare c arguments
      let steps ← Run.ofAct (job.files.mapM (step c job.mode job.fixer job.base))
      conclude c job.mode steps) := by
  have hrun : Verb.run c .fix arguments = (do
      let a ← parsed (Verb.interface .fix) arguments
      run c (choice a) (modeOf a) a.rest) := rfl
  rw [hrun]
  simp only [run_eq, prepare, sought, settle, bind_assoc, pure_bind]

theorem observes_found (c : Console) (choice : Choice) (m : Mode) (paths : List Text) :
    Observes (found c choice m paths) := by
  have hrest : Observes (do
      let config ← loadConfig c choice here
      let files ← selection m config paths
      return (config, files)) :=
    (observes_loadConfig _ _ _).bind fun _ => (observes_selection _ _ _).bind fun _ =>
      Run.observes_pure _
  rw [found]
  dsimp only
  split_ifs
  · exact (Run.observes_stop _).bind fun _ => hrest
  · exact hrest

theorem observes_sought (c : Console) (a : Arguments) : Observes (sought c a) :=
  observes_found _ _ _ _

theorem observes_prepare (c : Console) (arguments : List Text) : Observes (prepare c arguments) :=
  (observes_parsed _ _).bind fun _ => (observes_sought _ _).bind fun _ => observes_settle _ _ _ _ _

theorem sought_withDry (c : Console) (a : Arguments) : sought c (withDry a) = sought c a := by
  have hchoice : choice (withDry a) = choice a := by
    rw [choice, choice, Arguments.value?, Arguments.values_withFlag (by decide),
      Arguments.values_withFlag (by decide), Arguments.values_withFlag (by decide)]
    rfl
  rw [sought, hchoice, modeOf_withDry]
  rfl

/-- A dry run comes to the same job as the run itself, or to the same end before it. -/
theorem prepare_dry (htakes : TakesFlag (Verb.interface .fix) "--dry-run") (c : Console)
    (arguments : List Text) (hlinkless : w.tree.Linkless) :
    (prepare c ("--dry-run".toList :: arguments) w).1 = (prepare c arguments w).1.map Job.dry ∧
      Act.Agrees (fun _ => True) (prepare c arguments w).2
      (prepare c ("--dry-run".toList :: arguments) w).2 := by
  have hdry : prepare c ("--dry-run".toList :: arguments) = (do
      let a ← parsed (Verb.interface .fix) arguments
      let (config, base, files) ← sought c a
      settle c { modeOf a with isDry := true } config base files) := by
    rw [prepare, htakes.parsed]
    simp only [bind_map_left, sought_withDry, modeOf_withDry]
  -- up to `settle` both runs are one and the same
  rw [hdry, prepare, bind_apply, bind_apply]
  have hparsed := observes_parsed (Verb.interface .fix) arguments w
  rcases hp : parsed (Verb.interface .fix) arguments w with ⟨s | a, w₁⟩ <;> rw [hp] at hparsed <;>
    have hlinkless₁ : w₁.tree.Linkless := hparsed.1.symm ▸ hlinkless
  · exact ⟨rfl, .refl hlinkless₁⟩
  have hsought := observes_sought c a w₁
  dsimp only
  rw [bind_apply, bind_apply]
  rcases hs : sought c a w₁ with ⟨s | ⟨config, base, files⟩, w₂⟩ <;> rw [hs] at hsought <;>
    have hlinkless₂ : w₂.tree.Linkless := hsought.1.symm ▸ hlinkless₁
  · exact ⟨rfl, .refl hlinkless₂⟩
  · exact settle_dry c (modeOf a) config base files (.refl hlinkless₂)

/-- The arguments, as far as they are taken, do not ask for the staged files, and name files without
steps back. -/
def IsForward (arguments : List Text) (w : Workspace) : Prop :=
  ∀ a, CommandLine.take (Verb.interface .fix) w.tree w.cwd arguments = .ok a →
    a.has "--staged" = false ∧ ∀ path ∈ a.rest, ∀ part ∈ (Path.ofText path).parts,
    Tree.isUp part = false

theorem prepare_eq_ok (hw : w.IsPlain) (harguments : IsForward arguments w)
    (h : prepare c arguments w = (.ok job, w')) :
    job.mode.isStaged = false ∧ job.base = Act.ofPlace w.cwd ∧ job.files.Nodup ∧
      ∀ path ∈ job.files, Discovery.IsReported w.cwd path := by
  obtain ⟨a, w₁, hparsed, hrest⟩ := bind_eq_ok h
  obtain ⟨htake, rfl⟩ := parsed_eq_ok hparsed
  obtain ⟨hstaged, hforward⟩ := harguments a htake
  obtain ⟨⟨config, base, files⟩, w₂, hfound, hsettle⟩ := bind_eq_ok hrest
  rw [sought, found, show (modeOf a).isStaged = false from hstaged] at hfound
  obtain ⟨config', w₃, hload, hselected⟩ := bind_eq_ok hfound
  obtain ⟨⟨base', files'⟩, w₄, hselection, hpure⟩ := bind_eq_ok hselected
  cases hpure
  obtain ⟨_, w₅, -, hknown⟩ := bind_eq_ok hsettle
  obtain ⟨f, w₆, -, hjob⟩ := bind_eq_ok hknown
  cases hjob
  obtain ⟨hw₃, hcwd₃⟩ := isPlain_of_observes hw (observes_loadConfig _ _ _) hload
  obtain ⟨hbase, hfiles⟩ := selection_eq_ok (show (modeOf a).isStaged = false from hstaged) hw₃
    hforward hselection
  rw [hcwd₃] at hbase hfiles
  exact ⟨hstaged, hbase, hfiles⟩

end Prepare

end Masthead.Command.Fix
