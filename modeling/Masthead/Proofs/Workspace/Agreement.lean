import Masthead.Proofs.Workspace.Files
import Masthead.Proofs.Workspace.Places

/-! What an action depends on. Asking git and reading a file give the same in two workspaces that
agree on this file, however they differ in others; a file that is written is the only one that
changes. -/

namespace Masthead

namespace Tree
variable {t t' t'' u v : Tree} {place q : Place}

theorem Alike.refl (t : Tree) : Alike t t := fun _ => rfl

theorem Alike.symm (h : Alike t t') : Alike t' t := fun q => (h q).symm

theorem Alike.trans (h : Alike t t') (h' : Alike t' t'') : Alike t t'' :=
  fun q => (h q).trans (h' q)

structure OnlyAt (place : Place) (t t' : Tree) : Prop where
  alike : Alike t t'
  bytes : ∀ q, q ≠ place → t'.bytesAt? q = t.bytesAt? q

theorem OnlyAt.refl (place : Place) (t : Tree) : OnlyAt place t t := ⟨.refl t, fun _ _ => rfl⟩

theorem bytesAt?_cons (t : Tree) (name : Text) (place : Place) :
    t.bytesAt? (name :: place) = (t.child? name).bind (·.bytesAt? place) := by
  rw [bytesAt?, at?]
  cases t.child? name <;> rfl

theorem bytesAt?_alter_of_ne {f : Option Tree → Option Tree} {bytes new : List UInt8} {b b' : Bool}
    (h : t.at? place = some (.file bytes b)) (hf : f (some (.file bytes b)) = some (.file new b'))
    (hq : q ≠ place) : (alter f place t).bytesAt? q = t.bytesAt? q := by
  induction place generalizing t q with
  | nil =>
    obtain rfl := Option.some.inj h
    obtain ⟨name, q, rfl⟩ := List.exists_cons_of_ne_nil hq
    rw [alter, hf]
    rfl
  | cons name place ih =>
    obtain ⟨c, hc, hat⟩ := at?_cons_eq_some h
    obtain ⟨es, rfl⟩ := exists_dir_of_child? hc
    cases q with
    | nil => cases place <;> rfl
    | cons n q =>
      rw [bytesAt?_cons, bytesAt?_cons, child?_alter h hf]
      by_cases hn : name = n
      · subst hn
        have hrest : q ≠ place := fun heq => hq (heq ▸ rfl)
        rw [if_pos rfl, hc]
        exact ih hat hrest
      · rw [if_neg hn]

theorem onlyAt_alter {f : Option Tree → Option Tree} {bytes new : List UInt8} {b b' : Bool}
    (h : t.at? place = some (.file bytes b)) (hf : f (some (.file bytes b)) = some (.file new b')) :
    OnlyAt place t (alter f place t) :=
  ⟨(alike_alter h hf (alike_file new bytes b' b)).symm, fun _ hq => bytesAt?_alter_of_ne h hf hq⟩

end Tree

namespace Act
open Masthead.Tree (Place)

/-! Reading -/

section Reading
variable {p : Path}

def bytesIn (p : Path) (t : Tree) (start : Place) : Except Fault (List UInt8) :=
  if p.hasNull then .error .nullByte
  else if pathLimit < Tree.byteCount p.text then .error (.file ⟨.nameTooLong, p.text⟩)
  else match t.find start p.parts with
    | .error e => .error (.file ⟨e, p.text⟩)
    | .ok (_, none) => .error (.file ⟨.missing, p.text⟩)
    | .ok (_, some (.file bytes _)) => .ok bytes
    | .ok (_, some _) => .error (.file ⟨.isDirectory, p.text⟩)

theorem readBytes_eq (p : Path) (w : Workspace) :
    readBytes p w = (bytesIn p w.tree (start p w), w) := by
  rw [readBytes, bind_apply, find_eq, bytesIn]
  split_ifs
  · rfl
  · rfl
  · rcases w.tree.find (start p w) p.parts with e | ⟨place, _ | _ | _ | _⟩ <;> rfl

/-- Reading a file depends on nothing but this file. -/
theorem bytesIn_congr {t t' : Tree} {start : Place} (hlinkless : t.Linkless)
    (halike : Tree.Alike t t') (hbytes : t.bytesAt? (Tree.walk start p.parts) =
      t'.bytesAt? (Tree.walk start p.parts)) :
    bytesIn p t start = bytesIn p t' start := by
  rw [bytesIn, bytesIn, Tree.find, Tree.find, ← halike.follow_eq]
  cases hfollow : t.follow Tree.linkLimit start p.parts with
  | error e => rfl
  | ok place =>
    rw [← hlinkless.follow_eq hfollow, Tree.bytesAt?, Tree.bytesAt?] at hbytes
    have houtline := halike place
    -- what is at the place is of the same kind in both trees
    simp only [Except.map]
    rcases hat : t.at? place with _ | _ | _ | _ <;> rcases hat' : t'.at? place
      with _ | _ | _ | _ <;>
      simp_all [Tree.outline]

theorem looks_readBytes (p : Path) : Looks (readBytes p) := by
  intro w
  rw [readBytes_eq]
  refine ⟨rfl, fun v htree hcwd => ?_⟩
  rw [readBytes_eq, htree, start, start, hcwd]

theorem readSource_of_readBytes_of {P : ∀ {α : Type}, Act α → Prop} (hP : Compositional P)
    (h : P (readBytes p)) : P (readSource p) :=
  hP.bind (hP.bind h fun _ => hP.ofExcept _ _) fun _ => hP.pure _

end Reading

theorem LeadsTo.writeBytes_onlyAt {p : Path} {w : Workspace} {place : Place}
    {bytes : List UInt8} {b : Bool} (h : LeadsTo p w place bytes b) (hlinkless : w.tree.Linkless)
    (habsolute : p.isAbsolute = true) (new : List UInt8) :
    ∃ tree, Act.writeBytes p new w = (.ok (), { w with tree }) ∧
    Tree.OnlyAt (Tree.walk [] p.parts) w.tree tree := by
  obtain ⟨hplace, hat⟩ := hlinkless.find_eq h.found
  rw [start, if_pos habsolute] at hplace
  subst hplace
  exact ⟨_, h.writeBytes_eq new, Tree.onlyAt_alter hat (show refill new _ = _ from rfl)⟩

/-! Actions that only depend on what two workspaces have in common -/

/-- Workspaces without links whose files differ at most in bytes, and not at the places `seen`. -/
structure Agrees (seen : Place → Prop) (w v : Workspace) : Prop where
  linkless : w.tree.Linkless
  alike : Tree.Alike w.tree v.tree
  bytes : ∀ place, seen place → w.tree.bytesAt? place = v.tree.bytesAt? place
  cwd : w.cwd = v.cwd
  year : w.year = v.year
  git : w.git = v.git
  calls : w.calls = v.calls

theorem Agrees.refl {seen : Place → Prop} {w : Workspace} (h : w.tree.Linkless) : Agrees seen w w :=
  ⟨h, .refl _, fun _ _ => rfl, rfl, rfl, rfl, rfl⟩

theorem Agrees.mono {seen seen' : Place → Prop} {w v : Workspace} (h : Agrees seen w v)
    (hseen : ∀ place, seen' place → seen place) : Agrees seen' w v :=
  ⟨h.linkless, h.alike, fun place hplace => h.bytes place (hseen place hplace), h.cwd, h.year,
    h.git, h.calls⟩

theorem Agrees.said {seen : Place → Prop} {w v : Workspace} (h : Agrees seen w v)
    (output output' : Text) (errors errors' : List Log.Entry) :
    Agrees seen { w with output, errors } { v with output := output', errors := errors' } :=
  ⟨h.linkless, h.alike, h.bytes, h.cwd, h.year, h.git, h.calls⟩

/-- The action does the same in workspaces that agree, and they agree afterwards. -/
def SeesOnly {α : Type} (seen : Place → Prop) (x : Act α) : Prop :=
  ∀ w v, Agrees seen w v → (x w).1 = (x v).1 ∧ Agrees seen (x w).2 (x v).2

section SeesOnly
variable {seen : Place → Prop}

theorem SeesOnly.bind {α β : Type} {x : Act α} {f : α → Act β} (hx : SeesOnly seen x)
    (hf : ∀ a, SeesOnly seen (f a)) : SeesOnly seen (x >>= f) := by
  intro w v hagree
  obtain ⟨hfirst, hthen⟩ := hx w v hagree
  rw [bind_apply, bind_apply]
  rcases hw : x w with ⟨r, w'⟩
  rcases hv : x v with ⟨r', v'⟩
  rw [hw, hv] at hfirst hthen
  obtain rfl : r = r' := hfirst
  cases r with
  | error e => exact ⟨rfl, hthen⟩
  | ok a => exact hf a w' v' hthen

theorem SeesOnly.attempt {α : Type} {x : Act α} (h : SeesOnly seen x) :
    SeesOnly seen (attempt x) := by
  intro w v hagree
  obtain ⟨hresult, hthen⟩ := h w v hagree
  rw [attempt_apply, attempt_apply, hresult]
  exact ⟨rfl, hthen⟩

theorem seesOnly_compositional (seen : Place → Prop) : Compositional (SeesOnly seen) where
  pure _ _ _ h := ⟨rfl, h⟩
  fail _ _ _ h := ⟨rfl, h⟩
  bind := .bind
  attempt := .attempt

theorem seesOnly_readBytes {p : Path} (habsolute : p.isAbsolute = true)
    (hseen : seen (Tree.walk [] p.parts)) :
    SeesOnly seen (readBytes p) := by
  intro w v hagree
  have hstart (w : Workspace) : start p w = [] := if_pos habsolute
  rw [readBytes_eq, readBytes_eq, hstart, hstart,
    bytesIn_congr hagree.linkless hagree.alike (hagree.bytes _ hseen)]
  exact ⟨rfl, hagree⟩

end SeesOnly
end Act

namespace Git
open Act (SeesOnly)
variable {seen : Tree.Place → Prop}

theorem seesOnly_run (arguments : List Text) (directory : Path) :
    SeesOnly seen (run arguments directory) := by
  intro w v hagree
  have hcall : callOf arguments directory w = callOf arguments directory v := by
    rw [callOf, callOf, Act.start, Act.start, hagree.cwd]
  rw [run_eq, run_eq, hcall, hagree.git, hagree.calls]
  exact ⟨rfl, hagree.linkless, hagree.alike, hagree.bytes, hagree.cwd, hagree.year, rfl, rfl⟩

end Git
end Masthead
