import Masthead.Command.Fix
import Masthead.Proofs.Fix.File
import Masthead.Proofs.Workspace.Agreement

/-! Fixing files one after the other. What becomes of a file does not depend on what became of the
files before it, whether they were written or not; and nothing is written but the files that are
reported as changed. -/

namespace Masthead

namespace Fix
open Act (Compositional Observes)
variable [Limits] {f : Fixer} {past : Act Past} {p : Path} {shown : Text} {w w₁ : Workspace}
  {o : FileOutcome}

theorem file_of_parts {P : ∀ {α : Type}, Act α → Prop} (hP : Compositional P) (f : Fixer)
    (shown : Text) (hread : P (Act.readBytes p)) (hpast : P past) : P (file f past p shown) := by
  refine hP.bind (hP.attempt (Act.readSource_of_readBytes_of hP hread)) fun r => ?_
  rcases r with e | source
  · cases e <;> first | exact hP.pure _ | exact hP.fail _
  · dsimp only
    split
    · exact hP.bind hpast fun told => hP.bind (hP.demandRoom _) fun _ => hP.pure _
    · exact hP.bind (hP.pure _) fun told => hP.bind (hP.demandRoom _) fun _ => hP.pure _

theorem file_cases (h : file f past p shown w = (.ok o, w₁)) :
    (∃ e, o = .skipped (if shown.isEmpty then p.text else shown) e) ∨
      ∃ source told, Act.readSource p w = (.ok source, w) ∧
        o = .ofOutcome (if shown.isEmpty then p.text else shown) source
        (f.fix told source.text) := by
  have hstill :=
    (Act.readSource_of_readBytes_of Act.looks_compositional (Act.looks_readBytes p)).still w
  rcases hread : Act.readSource p w with ⟨r, w'⟩
  rw [hread] at hstill
  obtain rfl : w' = w := hstill
  cases r with
  | ok source =>
    obtain ⟨told, -, ho⟩ := file_eq_ok hread h
    exact Or.inr ⟨source, told, rfl, ho⟩
  | error e =>
    have hattempt : Act.attempt (Act.readSource p) w' = (.ok (.error e), w') := by
      rw [Act.attempt_apply, hread]
    rw [file, bind_of_ok _ hattempt] at h
    cases e <;> cases h <;> exact Or.inl ⟨_, rfl⟩

theorem path_of_file (h : file f past p shown w = (.ok o, w₁)) (hshown : shown ≠ []) :
    o.path = shown := by
  have hpath : (if shown.isEmpty then p.text else shown) = shown := if_neg (by simpa using hshown)
  rcases file_cases h with ⟨e, rfl⟩ | ⟨source, told, -, rfl⟩
  · exact hpath
  · exact hpath

theorem leadsTo_of_modifies (h : file f past p shown w = (.ok o, w₁))
    (hmod : o.action.modifies = true) :
    (∃ place bytes b, Act.LeadsTo p w place bytes b) ∧ ∃ updated, o.updated = some updated := by
  rcases file_cases h with ⟨e, rfl⟩ | ⟨source, told, hread, rfl⟩
  · cases hmod
  · obtain ⟨raw, w', hraw, -⟩ := bind_eq_ok hread
    obtain ⟨bytes, w'', hbytes, -⟩ := bind_eq_ok hraw
    obtain ⟨-, place, b, hleads⟩ := Act.exists_leadsTo hbytes
    exact ⟨⟨place, bytes, b, hleads⟩, _, rfl⟩

end Fix

namespace Command.Fix
open Masthead.Fix (FileOutcome file)

section Step
variable {c : Console} {m : Mode} {f : Fixer} {base p : Path} {o : FileOutcome} {w w₁ : Workspace}

def Prints (x : Act Unit) : Prop := ∀ w, ∃ output errors, x w = (.ok (), { w with output, errors })

theorem prints_pure : Prints (pure ()) := fun w => ⟨w.output, w.errors, rfl⟩

theorem Prints.bind {x y : Act Unit} (hx : Prints x) (hy : Prints y) :
    Prints (x >>= fun _ => y) := by
  intro w
  obtain ⟨output, errors, hw⟩ := hx w
  rw [bind_of_ok _ hw]
  exact hy _

section
variable [CommandLine]

theorem prints_say (c : Console) (s : Text) : Prints (c.say s) := fun w => ⟨_, w.errors, rfl⟩

theorem prints_tell (c : Console) (m : Mode) (o : FileOutcome) : Prints (tell c m o) := by
  rw [tell]
  split_ifs
  · exact (prints_say _ _).bind (prints_say _ _)
  · exact (prints_say _ _).bind prints_pure
  · exact prints_say _ _
  · exact prints_say _ _
  · exact prints_pure

theorem prints_tellDiff [Painter] (c : Console) (m : Mode) (o : FileOutcome) :
    Prints (tellDiff c m o) := by
  rw [tellDiff]
  cases o.current with
  | none => exact prints_pure
  | some text =>
    dsimp only
    split_ifs
    · exact fun w => ⟨_, w.errors, rfl⟩
    · exact prints_pure

end

/-- The workspaces differ at most in what was said, and in the bytes of the file at one place. -/
structure OnlyAt (place : Tree.Place) (w w' : Workspace) : Prop where
  tree : Tree.OnlyAt place w.tree w'.tree
  cwd : w'.cwd = w.cwd
  year : w'.year = w.year
  git : w'.git = w.git
  calls : w'.calls = w.calls

theorem OnlyAt.agrees {seen seen' : Tree.Place → Prop} {v w' v' : Workspace} {place : Tree.Place}
    (hw : OnlyAt place w w') (hv : OnlyAt place v v') (h : Act.Agrees seen w v)
    (hseen : ∀ q, seen' q → seen q ∧ q ≠ place) : Act.Agrees seen' w' v' where
  linkless := hw.tree.alike.linkless h.linkless
  alike := (hw.tree.alike.symm.trans h.alike).trans hv.tree.alike
  bytes q hq := by
    obtain ⟨hq, hne⟩ := hseen q hq
    rw [hw.tree.bytes q hne, hv.tree.bytes q hne, h.bytes q hq]
  cwd := by rw [hw.cwd, hv.cwd, h.cwd]
  year := by rw [hw.year, hv.year, h.year]
  git := by rw [hw.git, hv.git, h.git]
  calls := by rw [hw.calls, hv.calls, h.calls]

theorem write_eq [Limits] [CommandLine] (hstaged : m.isStaged = false)
    (hfile : file f (Git.past f.config p) p shown w = (.ok o, w₁)) (habsolute : p.isAbsolute = true)
    (hlinkless : w.tree.Linkless) :
    ∃ tree, write c m p o w₁ = (.ok { outcome := o }, { w₁ with tree }) ∧
      Tree.OnlyAt (Tree.walk [] p.parts) w₁.tree tree ∧
      (m.isDry = true ∨ o.action.modifies = false → tree = w₁.tree) := by
  by_cases hwrite : o.action.modifies = true ∧ m.isDry = false
  · obtain ⟨hmod, hdry⟩ := hwrite
    obtain ⟨⟨place, bytes, b, hleads⟩, updated, hupdated⟩ :=
      Masthead.Fix.leadsTo_of_modifies hfile hmod
    obtain ⟨htree, hcwd⟩ : w₁.tree = w.tree ∧ w₁.cwd = w.cwd := by
      have hobserves := Masthead.Fix.file_of_parts Act.observes_compositional f shown
        (Act.looks_readBytes p).observes (Git.observes_past f.config p) w
      rw [hfile] at hobserves
      exact hobserves
    obtain ⟨tree, hput, honly⟩ :=
      (hleads.of_tree htree hcwd).writeBytes_onlyAt (htree ▸ hlinkless) habsolute
      (Utf8.encode (Source.write updated o.newline))
    refine ⟨tree, ?_, honly, fun hstill => ?_⟩
    · have hput : Act.attempt (Act.writeSource p updated o.newline) w₁ =
        (.ok (.ok ()), { w₁ with tree }) := by
        rw [Act.attempt_apply]
        exact congrArg (fun r => (Except.ok r.1, r.2)) hput
      have hon : (o.action.modifies && !m.isDry) = true := by rw [hmod, hdry]; rfl
      rw [write, hupdated]
      dsimp only
      rw [if_pos hon, bind_of_ok _ hput, hstaged]
      rfl
    · simp [hdry, hmod] at hstill
  · refine ⟨w₁.tree, ?_, .refl _ _, fun _ => rfl⟩
    have hoff : (o.action.modifies && !m.isDry) = false := by
      simpa using hwrite
    rw [write]
    cases o.updated with
    | none => rfl
    | some updated =>
      rw [hoff]
      rfl

theorem Prints.onlyAt {x : Act Unit} (hx : Prints x) {tree : Tree} {place : Tree.Place}
    (h : Tree.OnlyAt place w.tree tree) :
    ∃ w', x { w with tree } = (.ok (), w') ∧ OnlyAt place w w' ∧ w'.tree = tree := by
  obtain ⟨output, errors, hx⟩ := hx { w with tree }
  exact ⟨_, hx, ⟨h, rfl, rfl, rfl, rfl⟩, rfl⟩

def spot (base : Path) (path : Text) : Tree.Place :=
  Tree.walk [] (base.join (Path.ofText path)).parts

theorem isAbsolute_join (h : base.isAbsolute = true) (q : Path) :
    (base.join q).isAbsolute = true := by
  rw [Path.join]
  split_ifs with hq
  · exact hq
  · exact h

section
variable [Limits] {path : Text}

def outcomeAt (f : Fixer) (base : Path) (path : Text) : Act FileOutcome :=
  file f (Git.past f.config (base.join (Path.ofText path))) (base.join (Path.ofText path)) path

theorem observes_outcomeAt (f : Fixer) (base : Path) (path : Text) :
    Act.Observes (outcomeAt f base path) :=
  Masthead.Fix.file_of_parts Act.observes_compositional f path (Act.looks_readBytes _).observes
    (Git.observes_past f.config _)

theorem seesOnly_outcomeAt {seen : Tree.Place → Prop} (f : Fixer) (hbase : base.isAbsolute = true)
    (hseen : seen (spot base path)) : Act.SeesOnly seen (outcomeAt f base path) :=
  Masthead.Fix.file_of_parts (Act.seesOnly_compositional seen) f path
    (Act.seesOnly_readBytes (isAbsolute_join hbase _) hseen)
    (Git.past_of_run (Act.seesOnly_compositional seen) Git.seesOnly_run f.config _)

variable [Painter] [CommandLine]

theorem step_of_error {e : Fault} (hfile : outcomeAt f base path w = (.error e, w₁)) :
    step c m f base path w = (.error e, w₁) := by
  rw [step, bind_apply, ← outcomeAt, hfile]

theorem step_of_ok (hstaged : m.isStaged = false) (hbase : base.isAbsolute = true)
    (hlinkless : w.tree.Linkless) (hfile : outcomeAt f base path w = (.ok o, w₁)) :
    ∃ w₂, step c m f base path w = (.ok { outcome := o }, w₂) ∧ OnlyAt (spot base path) w₁ w₂ ∧
      (m.isDry = true ∨ o.action.modifies = false → w₂.tree = w₁.tree) := by
  obtain ⟨tree, hwrite, honly, hstill⟩ :=
      write_eq (c := c) hstaged hfile (isAbsolute_join hbase _) hlinkless
  obtain ⟨w₂, hsay, hsaid, htree⟩ := ((prints_tell c m o).bind (prints_tellDiff c m o)).onlyAt honly
  obtain ⟨_, w₃, htell, hrest⟩ := bind_eq_ok hsay
  refine ⟨w₂, ?_, hsaid, fun h => htree.trans (hstill h)⟩
  rw [step, ← outcomeAt, bind_of_ok _ hfile, bind_of_ok _ hwrite, bind_of_ok _ htell,
    bind_of_ok _ hrest]
  rfl

/-- A step of a course ends it with a fault, or fixes a file that is the only one to change. -/
theorem step_cases (hm : m.isStaged = false) (hbase : base.isAbsolute = true)
    (hlinkless : w.tree.Linkless) (path : Text) :
    (∃ e w', step c m f base path w = (.error e, w') ∧ w'.tree = w.tree) ∨
      ∃ o w', step c m f base path w = (.ok { outcome := o }, w') ∧ (path ≠ [] → o.path = path) ∧
        Tree.OnlyAt (spot base path) w.tree w'.tree ∧
        (m.isDry = true ∨ o.action.modifies = false → w'.tree = w.tree) := by
  have hobserves := observes_outcomeAt f base path w
  rcases hfile : outcomeAt f base path w with ⟨e | o, w₁⟩ <;> rw [hfile] at hobserves
  · exact Or.inl ⟨e, w₁, step_of_error hfile, hobserves.1⟩
  · have htree : w₁.tree = w.tree := hobserves.1
    obtain ⟨w₂, hstep, honly, hstill⟩ := step_of_ok (c := c) hm hbase hlinkless hfile
    exact Or.inr ⟨o, w₂, hstep, Masthead.Fix.path_of_file hfile, htree ▸ honly.tree, htree ▸ hstill⟩

end
end Step

/-! The whole course -/

structure Course where
  outcomes : List FileOutcome := []
  stop : Option Stop := none
deriving DecidableEq, Repr

section Course
variable [Limits] [Painter] [CommandLine]

def course (c : Console) (m : Mode) (f : Fixer) (base : Path) : List Text → Workspace → Course
  | [], _ => {}
  | path :: paths, w =>
    match step c m f base path w with
    | (.ok s, w) =>
      let rest := course c m f base paths w
      ⟨s.outcome :: rest.outcomes, rest.stop⟩
    | (.error e, _) => { stop := some (.fault e) }

variable {c : Console} {m : Mode} {f : Fixer} {base : Path} {paths : List Text} {w v : Workspace}

/-- What becomes of files at different places is the same whether those before them were written or
not. -/
theorem course_eq {m' : Mode} (hm : m.isStaged = false) (hm' : m'.isStaged = false)
    (hbase : base.isAbsolute = true) (hpaths : (paths.map (spot base)).Nodup)
    (h : Act.Agrees (· ∈ paths.map (spot base)) w v) :
    course c m f base paths w = course c m' f base paths v := by
  -- each step uses up one place on which the two workspaces have to agree
  induction paths generalizing w v with
  | nil => rfl
  | cons path paths ih =>
    rw [List.map_cons, List.nodup_cons] at hpaths
    obtain ⟨hsame, hagree⟩ := seesOnly_outcomeAt f hbase List.mem_cons_self w v h
    rcases hw : outcomeAt f base path w with ⟨r, w₁⟩
    rcases hv : outcomeAt f base path v with ⟨r', v₁⟩
    rw [hw, hv] at hsame hagree
    obtain rfl : r = r' := hsame
    cases r with
    | error e => rw [course, course, step_of_error hw, step_of_error hv]
    | ok o =>
      obtain ⟨w₂, hstepw, honlyw, -⟩ := step_of_ok (c := c) hm hbase h.linkless hw
      obtain ⟨v₂, hstepv, honlyv, -⟩ :=
          step_of_ok (c := c) hm' hbase (h.alike.linkless h.linkless) hv
      have hrest : Act.Agrees (· ∈ paths.map (spot base)) w₂ v₂ :=
        honlyw.agrees honlyv hagree fun q hq =>
          ⟨List.mem_cons_of_mem _ hq, fun heq => hpaths.1 (heq ▸ hq)⟩
      rw [course, course, hstepw, hstepv]
      simp only [ih hpaths.2 hrest]

theorem path_mem_of_mem_course (hm : m.isStaged = false) (hbase : base.isAbsolute = true)
    (hlinkless : w.tree.Linkless) (hpaths : ∀ path ∈ paths, path ≠ []) {o : FileOutcome}
    (ho : o ∈ (course c m f base paths w).outcomes) : o.path ∈ paths := by
  induction paths generalizing w with
  | nil => cases ho
  | cons path paths ih =>
    rw [List.forall_mem_cons] at hpaths
    rw [course] at ho
    rcases step_cases (c := c) (f := f) hm hbase hlinkless path with
      ⟨e, w', hstep, -⟩ | ⟨o', w', hstep, hpath, honly, -⟩ <;> rw [hstep] at ho
    · cases ho
    · rcases List.mem_cons.mp ho with rfl | ho
      · exact (hpath hpaths.1).symm ▸ List.mem_cons_self
      · exact List.mem_cons_of_mem _ (ih (honly.alike.linkless hlinkless) hpaths.2 ho)

theorem mapM_step_fst (hm : m.isStaged = false) (hbase : base.isAbsolute = true)
    (hlinkless : w.tree.Linkless) :
    (Run.ofAct (paths.mapM (step c m f base)) w).1 =
      match (course c m f base paths w).stop with
      | some s => .error s
      | none => .ok ((course c m f base paths w).outcomes.map fun o => { outcome := o }) := by
  induction paths generalizing w with
  | nil => rfl
  | cons path paths ih =>
    rw [Run.ofAct, course]
    rcases step_cases (c := c) (f := f) hm hbase hlinkless path with
      ⟨e, w', hstep, -⟩ | ⟨o, w', hstep, -, honly, -⟩
    · rw [Act.mapM_cons_of_error _ hstep, hstep]
    · have hrest := ih (honly.alike.linkless hlinkless)
      rw [Run.ofAct] at hrest
      rw [Act.mapM_cons_of_ok _ hstep, hstep]
      dsimp only
      rcases hx : paths.mapM (step c m f base) w' with ⟨e | steps, w''⟩ <;> rw [hx] at hrest <;>
        cases hstop : (course c m f base paths w').stop <;> rw [hstop] at hrest <;>
          cases hrest <;> rfl

theorem tree_mapM_step_dry (hm : m.isStaged = false) (hdry : m.isDry = true)
    (hbase : base.isAbsolute = true) (hlinkless : w.tree.Linkless) :
    (paths.mapM (step c m f base) w).2.tree = w.tree := by
  induction paths generalizing w with
  | nil => rfl
  | cons path paths ih =>
    rcases step_cases (c := c) (f := f) hm hbase hlinkless path with
      ⟨e, w', hstep, htree⟩ | ⟨o, w', hstep, -, -, hstill⟩
    · rw [Act.mapM_cons_of_error _ hstep]
      exact htree
    · have htree := hstill (Or.inl hdry)
      rw [Act.mapM_cons_of_ok _ hstep]
      exact (ih (htree.symm ▸ hlinkless)).trans htree

theorem bytesAt?_mapM_step (hm : m.isStaged = false) (hbase : base.isAbsolute = true)
    (hlinkless : w.tree.Linkless) (hpaths : ∀ path ∈ paths, path ≠ []) {place : Tree.Place}
    (hplace : ∀ o ∈ (course c m f base paths w).outcomes, o.action.modifies = true →
      spot base o.path ≠ place) :
    (paths.mapM (step c m f base) w).2.tree.bytesAt? place = w.tree.bytesAt? place := by
  induction paths generalizing w with
  | nil => rfl
  | cons path paths ih =>
    rw [List.forall_mem_cons] at hpaths
    rw [course] at hplace
    rcases step_cases (c := c) (f := f) hm hbase hlinkless path with
      ⟨e, w', hstep, htree⟩ | ⟨o, w', hstep, hpath, honly, hstill⟩
    · rw [Act.mapM_cons_of_error _ hstep]
      exact congrArg (·.bytesAt? place) htree
    · rw [hstep, List.forall_mem_cons] at hplace
      have hfirst : w'.tree.bytesAt? place = w.tree.bytesAt? place := by
        by_cases hmod : o.action.modifies = true
        · have hne := hplace.1 hmod
          rw [hpath hpaths.1] at hne
          exact honly.bytes place hne.symm
        · rw [hstill (Or.inr (by simpa using hmod))]
      rw [Act.mapM_cons_of_ok _ hstep]
      exact (ih (honly.alike.linkless hlinkless) hpaths.2 hplace.2).trans hfirst

end Course
end Command.Fix
end Masthead
