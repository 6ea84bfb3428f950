import Masthead.Backend.Limits
import Masthead.Backend.Toml.Library
import Masthead.Proofs.Backend.CommandLine
import Masthead.Proofs.Fix.Preparation
import Mathlib

/-! What a dry run foretells. It comes to the same files and the same outcomes as the run that
writes, and it writes nothing; that run in turn leaves alone what is not reported as changed. -/

namespace Masthead.Command.Fix
open Masthead.Fix (FileOutcome ask)

/-! The end of a run -/

theorem conclude_eq [CommandLine] (c : Console) (m : Mode) (outcomes : List FileOutcome)
    (w : Workspace) :
    (conclude c m (outcomes.map fun o => { outcome := o }) w).1 =
        (if m.isDry ∧ 0 < outcomes.countP (·.action.modifies) then .error (.exit wouldChange)
          else .ok ()) ∧
      (conclude c m (outcomes.map fun o => { outcome := o }) w).2.tree = w.tree := by
  have hcount : (outcomes.map fun o => ({ outcome := o } : Step)).countP
      (·.outcome.action.modifies) =
      outcomes.countP (·.action.modifies) := List.countP_map
  have hcode : (outcomes.map fun o => ({ outcome := o } : Step)).findSome? (·.code) = none := by
    simp
  rw [conclude, summarize, hcount, hcode]
  split_ifs <;> exact ⟨rfl, rfl⟩

theorem spot_reported {base place : Tree.Place} (hbase : ∀ name ∈ base, Tree.IsName name)
    (h : ∀ name ∈ place, Tree.IsName name) :
    spot (Act.ofPlace base) (Discovery.reported base place) = place := by
  have hjoin : (Act.ofPlace base).join ⟨[], Discovery.relative base place⟩ =
      ⟨['/'], base ++ Discovery.relative base place⟩ := rfl
  rw [spot, Discovery.ofText_reported h, hjoin, Tree.walk_append,
    Tree.walk_names fun name hname => (hbase name hname).2]
  exact Discovery.walk_relative fun name hname => (h name hname).2

theorem nodup_spots {base : Tree.Place} (hbase : ∀ name ∈ base, Tree.IsName name)
    {paths : List Text} (hpaths : paths.Nodup)
    (hreported : ∀ path ∈ paths, Discovery.IsReported base path) :
    (paths.map (spot (Act.ofPlace base))).Nodup := by
  refine List.Nodup.map_on (fun path hpath path' hpath' heq => ?_) hpaths
  obtain ⟨place, hplace, rfl⟩ := hreported path hpath
  obtain ⟨place', hplace', rfl⟩ := hreported path' hpath'
  rw [spot_reported hbase hplace, spot_reported hbase hplace'] at heq
  rw [heq]

structure Ready (job : Job) (w w₁ : Workspace) : Prop where
  unstaged : job.mode.isStaged = false
  base : job.base = Act.ofPlace w.cwd
  spots : (job.files.map (spot job.base)).Nodup
  reported : ∀ path ∈ job.files, Discovery.IsReported w.cwd path
  linkless : w₁.tree.Linkless
  tree : w₁.tree = w.tree

theorem Ready.absolute {job : Job} {w w₁ : Workspace} (h : Ready job w w₁) :
    job.base.isAbsolute = true := by
  rw [h.base]
  rfl

theorem IsForward.dry [CommandLine] {arguments : List Text} {w : Workspace}
    (htakes : TakesFlag (Verb.interface .fix) "--dry-run") (h : IsForward arguments w) :
    IsForward ("--dry-run".toList :: arguments) w := by
  intro a ha
  rw [htakes] at ha
  cases htake : CommandLine.take (Verb.interface .fix) w.tree w.cwd arguments with
  | error r =>
    rw [htake] at ha
    cases ha
  | ok a' =>
    rw [htake] at ha
    obtain rfl := Except.ok.inj ha
    obtain ⟨hstaged, hforward⟩ := h a' htake
    exact ⟨(Arguments.has_withFlag (by decide)).trans hstaged, hforward⟩

section Account
variable [Limits] [Toml.Library] [Painter] [CommandLine]

/-- The account of a run: what became of the files it came to, and what stopped it before the last
of them. -/
def account (c : Console) (arguments : List Text) (w : Workspace) : Course :=
  match prepare c arguments w with
  | (.error s, _) => { stop := some s }
  | (.ok job, w) => course c job.mode job.fixer job.base job.files w

variable {c : Console} {w w₁ : Workspace} {arguments : List Text} {job : Job}

theorem verb_run_of_error {s : Stop} (h : prepare c arguments w = (.error s, w₁)) :
    Verb.run c .fix arguments w = (.error s, w₁) := by
  rw [verb_run_eq, bind_apply, h]

theorem verb_run_of_ok (h : prepare c arguments w = (.ok job, w₁)) (hm : job.mode.isStaged = false)
    (hbase : job.base.isAbsolute = true) (hlinkless : w₁.tree.Linkless) :
    (Verb.run c .fix arguments w).1 =
        (match (account c arguments w).stop with
        | some s => .error s
        | none =>
          if job.mode.isDry ∧ 0 < (account c arguments w).outcomes.countP (·.action.modifies) then
            .error (.exit wouldChange)
          else .ok ()) ∧
      (Verb.run c .fix arguments w).2.tree =
        (job.files.mapM (step c job.mode job.fixer job.base) w₁).2.tree := by
  have hsteps : (Run.ofAct (job.files.mapM (step c job.mode job.fixer job.base)) w₁).1 = _ :=
    mapM_step_fst hm hbase hlinkless
  have haccount : account c arguments w = course c job.mode job.fixer job.base job.files w₁ := by
    rw [account, h]
  -- the lift into the course of a command gives a fault another name and keeps the workspace
  have htree : (Run.ofAct (job.files.mapM (step c job.mode job.fixer job.base)) w₁).2 =
      (job.files.mapM (step c job.mode job.fixer job.base) w₁).2 := by
    rw [Run.ofAct]
    rcases job.files.mapM (step c job.mode job.fixer job.base) w₁ with ⟨_ | _, _⟩ <;> rfl
  rw [verb_run_eq, bind_of_ok _ h, bind_apply, haccount, ← htree]
  rcases hx : Run.ofAct (job.files.mapM (step c job.mode job.fixer job.base)) w₁ with ⟨r, w₂⟩
  rw [hx] at hsteps
  obtain rfl : r = _ := hsteps
  cases (course c job.mode job.fixer job.base job.files w₁).stop with
  | some s => exact ⟨rfl, rfl⟩
  | none => exact conclude_eq c job.mode _ w₂

theorem ready_of_prepare (hw : w.IsPlain) (harguments : IsForward arguments w)
    (h : prepare c arguments w = (.ok job, w₁)) : Ready job w w₁ := by
  obtain ⟨hstaged, hbase, hnodup, hreported⟩ := prepare_eq_ok hw harguments h
  have htree := (observes_prepare c arguments w).1
  rw [h] at htree
  exact {
    unstaged := hstaged
    base := hbase
    spots := hbase ▸ nodup_spots hw.inNamed hnodup hreported
    reported := hreported
    linkless := htree.symm ▸ Tree.linkless_of_linkCount hw.linkless
    tree := htree }

theorem bytesAt?_verb_run (c : Console) (hw : w.IsPlain) (harguments : IsForward arguments w)
    {place : Tree.Place} (hplace : ∀ o ∈ (account c arguments w).outcomes,
      o.action.modifies = true →
      o.path ≠ Discovery.reported w.cwd place) :
    (Verb.run c .fix arguments w).2.tree.bytesAt? place = w.tree.bytesAt? place := by
  have htree := (observes_prepare c arguments w).1
  rcases hp : prepare c arguments w with ⟨s | job, w₁⟩ <;> rw [hp] at htree
  · rw [verb_run_of_error hp]
    exact congrArg (·.bytesAt? place) htree
  · have hjob := ready_of_prepare hw harguments hp
    have haccount : account c arguments w = course c job.mode job.fixer job.base job.files w₁ := by
      rw [account, hp]
    have hnamed : ∀ path ∈ job.files, path ≠ [] := by
      intro path hpath
      obtain ⟨q, hq, rfl⟩ := hjob.reported path hpath
      exact Discovery.reported_ne_nil hq
    rw [haccount] at hplace
    rw [(verb_run_of_ok hp hjob.unstaged hjob.absolute hjob.linkless).2,
      bytesAt?_mapM_step hjob.unstaged hjob.absolute hjob.linkless hnamed, htree]
    intro o ho hmod heq
    obtain ⟨q, hq, hpath⟩ := hjob.reported o.path
      (path_mem_of_mem_course hjob.unstaged hjob.absolute hjob.linkless hnamed ho)
    rw [hpath, hjob.base, spot_reported hw.inNamed hq] at heq
    exact hplace o ho hmod (heq ▸ hpath)

variable (htakes : TakesFlag (Verb.interface .fix) "--dry-run")
include htakes

theorem account_dry (c : Console) (hw : w.IsPlain) (harguments : IsForward arguments w) :
    account c ("--dry-run".toList :: arguments) w = account c arguments w := by
  obtain ⟨hsame, hagree⟩ := prepare_dry htakes c arguments (Tree.linkless_of_linkCount hw.linkless)
  rw [account, account]
  rcases hp : prepare c arguments w with ⟨r, w₁⟩
  rcases hd : prepare c ("--dry-run".toList :: arguments) w with ⟨r', v₁⟩
  rw [hp, hd] at hsame hagree
  obtain rfl : r' = r.map Job.dry := hsame
  cases r with
  | error s => rfl
  | ok job =>
    have hjob := ready_of_prepare hw harguments hp
    exact (course_eq hjob.unstaged (ready_of_prepare hw (harguments.dry htakes) hd).unstaged
      hjob.absolute hjob.spots
      (hagree.mono fun _ _ => trivial)).symm

theorem verb_run_dry (c : Console) (hw : w.IsPlain) (harguments : IsForward arguments w) :
    (Verb.run c .fix ("--dry-run".toList :: arguments) w).2.tree = w.tree ∧
      (Verb.run c .fix ("--dry-run".toList :: arguments) w).1 =
        (match (account c arguments w).stop with
        | some s => .error s
        | none =>
          if (account c arguments w).outcomes.any (·.action.modifies)
            then .error (.exit wouldChange)
          else .ok ()) := by
  obtain ⟨hsame, -⟩ := prepare_dry htakes c arguments (Tree.linkless_of_linkCount hw.linkless)
  have htree := (observes_prepare c ("--dry-run".toList :: arguments) w).1
  rw [← account_dry htakes c hw harguments]
  rcases hp : prepare c arguments w with ⟨r, w₁⟩
  rcases hd : prepare c ("--dry-run".toList :: arguments) w with ⟨r', v₁⟩
  rw [hp, hd] at hsame
  rw [hd] at htree
  obtain rfl : r' = r.map Job.dry := hsame
  cases r with
  | error s =>
    rw [verb_run_of_error hd, account, hd]
    exact ⟨htree, rfl⟩
  | ok job =>
    have hjob := ready_of_prepare hw (harguments.dry htakes) hd
    obtain ⟨hending, hleft⟩ := verb_run_of_ok hd hjob.unstaged hjob.absolute hjob.linkless
    have hchanges : (job.dry.mode.isDry = true ∧
        0 < (account c ("--dry-run".toList :: arguments) w).outcomes.countP (·.action.modifies)) ↔
          (account c ("--dry-run".toList :: arguments) w).outcomes.any (·.action.modifies) =
          true := by
      simp [Job.dry, List.countP_pos_iff]
    rw [hending, hleft, tree_mapM_step_dry hjob.unstaged rfl hjob.absolute hjob.linkless]
    exact ⟨htree, by simp only [hchanges]⟩

end Account

section HalfDone
open scoped Masthead.Backend

def quiet : Console := ⟨false, 0⟩

def bare : Source := ⟨"1\n".toList, .lf, false⟩

def headed : Source where
  text := Header.generate Draft.defaults.filled [⟨"Jane Doe".toList, "jane@example.com".toList⟩]
    2025 none ++ "\n\n1\n"
  newline := .lf
  mixed := false

/-- A file without a header, beside one with the header that it is to have. -/
def halfDone : Workspace where
  tree := .dir [("a.ts".toList, .file (bare.bytes bare.text) false),
    ("b.ts".toList, .file (headed.bytes headed.text) false)]
  cwd := []
  year := 2025
  git := fun _ _ => .unavailable

def thisYear : Fixer := ⟨Draft.defaults.filled, none, 2025⟩

def asked (keys : List String) : List Git.Call :=
  keys.map fun key => ⟨["config".toList, "--get".toList, key.toList], []⟩

def halfDoneAsked : Workspace :=
  { halfDone with calls := asked ["user.email", "user.name", "user.email"] }

def placeOf (name : String) : Path := (Act.ofPlace []).join (Path.ofText name.toList)

set_option maxRecDepth 10000

theorem prepare_halfDone :
    prepare quiet ["--dry-run".toList] halfDone =
      (.ok ⟨{ isDry := true }, thisYear, Act.ofPlace [], ["a.ts".toList, "b.ts".toList]⟩,
        halfDoneAsked) := by
  have hparsed : parsed (Verb.interface .fix) ["--dry-run".toList] halfDone =
      (.ok ⟨[("--dry-run".toList, [])], []⟩, halfDone) := by
    rw [parsed_eq]
    rfl
  have hsought : sought quiet ⟨[("--dry-run".toList, [])], []⟩ halfDone =
      (.ok (Draft.defaults.filled, Act.ofPlace [], ["a.ts".toList, "b.ts".toList]),
        { halfDone with calls := asked ["user.email"] }) := by
    cbv
  rw [prepare, bind_of_ok _ hparsed, bind_of_ok _ hsought]
  cbv

section
variable {w w₁ : Workspace} {name : String} {source : Source}

theorem outcomeAt_halfDone {told : Past}
    (hleads : Act.LeadsTo (placeOf name) halfDone [name.toList] (source.bytes source.text) false)
    (hreturn : '\r' ∉ source.text) (hsource : source = ⟨source.text, .lf, false⟩)
    (htree : w.tree = halfDone.tree) (hcwd : w.cwd = halfDone.cwd) (hname : name.toList ≠ [])
    (hask : ask thisYear (Git.past thisYear.config (placeOf name)) source.text w = (.ok told, w₁)) :
    outcomeAt thisYear (Act.ofPlace []) name.toList w =
      (.ok (.ofOutcome name.toList source (thisYear.fix told source.text)), w₁) := by
  have hread := Act.readSource_of_readBytes (hleads.of_tree htree hcwd).readBytes
    (Utf8.decode_encode _)
  rw [Source.read_write hreturn, show source.newline = .lf by rw [hsource], ite_self, ← hsource]
    at hread
  rw [outcomeAt, ← placeOf, Masthead.Fix.file_eq_outcome hread hask (by decide),
    if_neg (by simpa using hname)]

theorem outcomeAt_bare :
    ∃ w, outcomeAt thisYear (Act.ofPlace []) "a.ts".toList halfDoneAsked =
      (.ok (.ofOutcome "a.ts".toList bare (thisYear.fix {} bare.text)), w) := by
  have hleads : Act.LeadsTo (placeOf "a.ts") halfDone ["a.ts".toList]
      (bare.bytes bare.text) false :=
    ⟨by decide, by decide, by cbv⟩
  have hcurrent : thisYear.current? bare.text = none := by cbv
  have hpast : (Git.past thisYear.config (placeOf "a.ts") halfDoneAsked).1 = .ok {} := by cbv
  refine ⟨(Git.past thisYear.config (placeOf "a.ts") halfDoneAsked).2,
    outcomeAt_halfDone hleads (by decide) rfl rfl rfl (by decide) ?_⟩
  rw [ask, hcurrent, ← hpast]
  rfl

theorem outcomeAt_headed (htree : w.tree = halfDone.tree) (hcwd : w.cwd = halfDone.cwd) :
    outcomeAt thisYear (Act.ofPlace []) "b.ts".toList w =
      (.ok (.ofOutcome "b.ts".toList headed (thisYear.fix {} headed.text)), w) := by
  have hleads : Act.LeadsTo (placeOf "b.ts") halfDone ["b.ts".toList]
      (headed.bytes headed.text) false :=
    ⟨by decide, by decide, by cbv⟩
  obtain ⟨h, hcurrent⟩ : ∃ h, thisYear.current? headed.text = some h :=
    Option.isSome_iff_exists.mp (by cbv)
  have hreturn : headed.text.elem '\r' = false := by cbv
  refine outcomeAt_halfDone hleads (by simpa using hreturn) rfl htree hcwd (by decide) ?_
  rw [ask, hcurrent]
  rfl

end

theorem account_halfDone :
    ((account quiet ["--dry-run".toList] halfDone).outcomes.map fun o => (o.path, o.action)) =
        [("a.ts".toList, .created), ("b.ts".toList, .unchanged)] ∧
      (account quiet ["--dry-run".toList] halfDone).stop = none := by
  have hcreated : (thisYear.fix {} bare.text).action = .created := by cbv
  have hunchanged : (thisYear.fix {} headed.text).action = .unchanged := by cbv
  have hlinkless : halfDoneAsked.tree.Linkless := Tree.linkless_of_linkCount rfl
  obtain ⟨w₁, hbare⟩ := outcomeAt_bare
  have hobserves := observes_outcomeAt thisYear (Act.ofPlace []) "a.ts".toList halfDoneAsked
  rw [hbare] at hobserves
  obtain ⟨w₂, hfirst, honly, hstill⟩ :=
    step_of_ok (c := quiet) (m := { isDry := true }) rfl rfl hlinkless hbare
  have htree : w₂.tree = halfDone.tree := (hstill (.inl rfl)).trans hobserves.1
  obtain ⟨w₃, hsecond, -⟩ := step_of_ok (c := quiet) (m := { isDry := true }) rfl rfl
    (htree.symm ▸ hlinkless)
    (outcomeAt_headed htree (honly.cwd.trans hobserves.2))
  rw [account, prepare_halfDone]
  simp only [course, hfirst, hsecond]
  simp only [FileOutcome.ofOutcome, List.map_cons, List.map_nil, hcreated, hunchanged, and_self]

theorem isForward_nil (w : Workspace) : IsForward [] w := by
  intro a ha
  have htake : CommandLine.take (Verb.interface .fix) w.tree w.cwd [] = .ok {} := by rfl
  obtain rfl := Except.ok.inj (htake.symm.trans ha)
  decide

def broken : Workspace where
  tree := .dir [("ante.toml".toList, .file (Utf8.encode "=".toList) false)]
  cwd := []
  year := 2025
  git := fun _ _ => .unavailable

theorem isPlain_broken : broken.IsPlain := ⟨rfl, ⟨by decide, trivial, trivial⟩, by simp [broken]⟩

theorem account_broken :
    account quiet [] broken =
    { stop := some (.failed (.config (.invalidToml "/ante.toml".toList))) } := by
  have hparsed : parsed (Verb.interface .fix) [] broken = (.ok {}, broken) := by
    rw [parsed_eq]
    rfl
  have hsought : (sought quiet {} broken).1 =
      .error (.failed (.config (.invalidToml "/ante.toml".toList))) := by cbv
  rw [account, prepare, bind_of_ok _ hparsed, bind_apply]
  rcases hs : sought quiet {} broken with ⟨r, w⟩
  rw [hs] at hsought
  obtain rfl : r = _ := hsought
  rfl

end HalfDone

end Masthead.Command.Fix
