import Masthead.Git
import Masthead.Proofs.Text.Utf8
import Masthead.Proofs.Workspace.Tree

/-! Reading and writing files. What was written to a file is read from it, and nothing but the file
changes. -/

namespace Masthead
/-! Steps that can stop a program -/

section Bind
variable {ε α β : Type} {x : ExceptT ε (StateM Workspace) α}
  {f : α → ExceptT ε (StateM Workspace) β}
  {w w' : Workspace}

theorem bind_apply (x : ExceptT ε (StateM Workspace) α) (f : α → ExceptT ε (StateM Workspace) β)
    (w : Workspace) :
    (x >>= f) w =
      match x w with
      | (.ok a, w') => f a w'
      | (.error e, w') => (.error e, w') := by
  change ExceptT.bindCont f (x w).1 (x w).2 = _
  rcases x w with ⟨_ | a, w'⟩ <;> rfl

theorem bind_eq_ok {b : β} (h : (x >>= f) w = (.ok b, w')) :
    ∃ a w₁, x w = (.ok a, w₁) ∧ f a w₁ = (.ok b, w') := by
  rw [bind_apply] at h
  rcases hx : x w with ⟨_ | a, w₁⟩
  · rw [hx] at h
    cases h
  · rw [hx] at h
    exact ⟨a, w₁, rfl, h⟩

theorem bind_of_ok {a : α} (f : α → ExceptT ε (StateM Workspace) β) (h : x w = (.ok a, w')) :
    (x >>= f) w = f a w' := by
  rw [bind_apply, h]

theorem bind_fst_eq_ok {b : β} :
    ((x >>= f) w).1 = .ok b ↔ ∃ a, (x w).1 = .ok a ∧ (f a (x w).2).1 = .ok b := by
  rw [bind_apply]
  rcases x w with ⟨_ | a, w'⟩ <;> simp

theorem pure_fst_eq_ok {a b : α} :
    ((pure a : ExceptT ε (StateM Workspace) α) w).1 = .ok b ↔ b = a :=
  ⟨fun h => (Except.ok.inj h).symm, fun h => congrArg Except.ok h.symm⟩

theorem bind_keeps {R : Workspace → Workspace → Prop} (htrans : ∀ {u v w}, R u v → R v w → R u w)
    (hx : ∀ w, R w (x w).2) (hf : ∀ a w, R w (f a w).2) (w : Workspace) : R w ((x >>= f) w).2 := by
  have hfirst := hx w
  rw [bind_apply]
  rcases hw : x w with ⟨_ | a, w'⟩ <;> rw [hw] at hfirst
  · exact hfirst
  · exact htrans hfirst (hf a w')

end Bind

namespace Act

section Run
variable {α β : Type} {w w' : Workspace}

theorem mapM_cons_of_error {x : α → Act β} {a : α} {e : Fault} (l : List α)
    (h : x a w = (.error e, w')) :
    (a :: l).mapM x w = (.error e, w') := by
  rw [List.mapM_cons, bind_apply, h]

theorem mapM_cons_of_ok {x : α → Act β} {a : α} {b : β} (l : List α) (h : x a w = (.ok b, w')) :
    (a :: l).mapM x w = ((l.mapM x w').1.map (b :: ·), (l.mapM x w').2) := by
  rw [List.mapM_cons, bind_of_ok _ h, bind_apply]
  rcases l.mapM x w' with ⟨_ | bs, w''⟩ <;> rfl

theorem attempt_apply (x : Act α) (w : Workspace) : attempt x w = (.ok (x w).1, (x w).2) := rfl

theorem demandRoom_eq_ok {e : Option Excess} (h : demandRoom e w = (.ok (), w')) :
    e = none ∧ w' = w := by
  cases e with
  | none =>
    cases h
    exact ⟨rfl, rfl⟩
  | some e => cases h

end Run

section Files
variable {p : Path} {w w' : Workspace} {bytes : List UInt8}

def start (p : Path) (w : Workspace) : Tree.Place := if p.isAbsolute then [] else w.cwd

theorem startOf_eq (p : Path) (w : Workspace) : startOf p w = (.ok (start p w), w) := by
  unfold startOf start
  split_ifs <;> rfl

theorem find_eq (p : Path) (w : Workspace) :
    find p w =
      if p.hasNull then (.error .nullByte, w)
      else if pathLimit < Tree.byteCount p.text then (.ok (.error .nameTooLong), w)
      else (.ok (w.tree.find (start p w) p.parts), w) := by
  unfold find start startOf
  split_ifs <;> rfl

/-- The path leads to a file with these bytes. -/
structure LeadsTo (p : Path) (w : Workspace) (place : Tree.Place) (bytes : List UInt8)
    (isExecutable : Bool) :
    Prop where
  valid : p.hasNull = false
  short : ¬ pathLimit < Tree.byteCount p.text
  found : w.tree.find (start p w) p.parts = .ok (place, some (.file bytes isExecutable))

section LeadsTo
variable {place : Tree.Place} {b : Bool}

theorem LeadsTo.find (h : LeadsTo p w place bytes b) :
    Act.find p w = (.ok (.ok (place, some (.file bytes b))), w) := by
  rw [find_eq, if_neg (by simp [h.valid]), if_neg h.short, h.found]

theorem LeadsTo.readBytes (h : LeadsTo p w place bytes b) : Act.readBytes p w = (.ok bytes, w) := by
  rw [Act.readBytes, bind_of_ok _ h.find]
  rfl

theorem LeadsTo.of_tree (h : LeadsTo p w place bytes b) (htree : w'.tree = w.tree)
    (hcwd : w'.cwd = w.cwd) :
    LeadsTo p w' place bytes b := by
  have hstart : start p w' = start p w := by simp only [start, hcwd]
  exact ⟨h.valid, h.short, by rw [htree, hstart, h.found]⟩

def refill (new : List UInt8) : Option Tree → Option Tree
  | some (.file _ isExecutable) => some (.file new isExecutable)
  | _ => some (.file new false)

theorem LeadsTo.writeBytes_eq (h : LeadsTo p w place bytes b) (new : List UInt8) :
    Act.writeBytes p new w = (.ok (), { w with tree := Tree.alter (refill new) place w.tree }) := by
  rw [Act.writeBytes, bind_of_ok _ h.find]
  rfl

theorem LeadsTo.writeBytes (h : LeadsTo p w place bytes b) (new : List UInt8) :
    ∃ tree, Act.writeBytes p new w = (.ok (), { w with tree }) ∧
    LeadsTo p { w with tree } place new b :=
  ⟨_, h.writeBytes_eq new, h.valid, h.short, Tree.find_alter h.found rfl⟩

end LeadsTo

theorem exists_leadsTo (h : readBytes p w = (.ok bytes, w')) :
    w' = w ∧ ∃ place b, LeadsTo p w place bytes b := by
  obtain ⟨found, w₁, hfind, hread⟩ := bind_eq_ok h
  rw [find_eq] at hfind
  split_ifs at hfind with hnull hlong
  · cases hfind
  · cases hfind
    cases hread
  · obtain ⟨hfound, hw⟩ := Prod.mk.inj hfind
    obtain rfl := Except.ok.inj hfound
    subst hw
    cases hx : w.tree.find (start p w) p.parts with
    | error e =>
      rw [hx] at hread
      cases hread
    | ok found =>
      obtain ⟨place, t⟩ := found
      rw [hx] at hread
      rcases t with _ | t
      · cases hread
      · cases t with
        | file bytes' b =>
          cases hread
          exact ⟨rfl, place, b, by simpa using hnull, hlong, hx⟩
        | dir es => cases hread
        | link target => cases hread

theorem readRaw_eq_ok_iff {raw : Text} :
    readRaw p w = (.ok raw, w') ↔ readBytes p w = (.ok (Utf8.encode raw), w') := by
  constructor
  · intro h
    obtain ⟨bytes, w₁, hbytes, hdecode⟩ := bind_eq_ok h
    cases hx : Utf8.decode bytes with
    | error e =>
      rw [hx] at hdecode
      cases hdecode
    | ok s =>
      rw [hx] at hdecode
      cases hdecode
      rw [Utf8.encode_decode hx, hbytes]
  · intro h
    rw [readRaw, bind_of_ok _ h, Utf8.decode_encode]
    rfl

theorem exists_leadsTo_of_readRaw {raw : Text} (h : (readRaw p w).1 = .ok raw) :
    ∃ place b, LeadsTo p w place (Utf8.encode raw) b :=
  (exists_leadsTo (readRaw_eq_ok_iff.mp (Prod.ext h rfl))).2

theorem exists_leadsTo_of_readText {s : Text} (h : (readText p w).1 = .ok s) :
    ∃ place bytes b, LeadsTo p w place bytes b := by
  rw [readText, bind_fst_eq_ok] at h
  obtain ⟨raw, hraw, -⟩ := h
  obtain ⟨place, b, hleads⟩ := exists_leadsTo_of_readRaw hraw
  exact ⟨place, _, b, hleads⟩

end Files

/-! What holds of an action as soon as it holds of its parts -/

/-- A property that actions take over from their parts. -/
structure Compositional (P : ∀ {α : Type}, Act α → Prop) : Prop where
  pure {α : Type} (a : α) : P (pure a : Act α)
  fail {α : Type} (e : Fault) : P (throw e : Act α)
  bind {α β : Type} {x : Act α} {f : α → Act β} : P x → (∀ a, P (f a)) → P (x >>= f)
  attempt {α : Type} {x : Act α} : P x → P (attempt x)

section Compositional
variable {P : ∀ {α : Type}, Act α → Prop} {α : Type}

theorem Compositional.ofExcept (hP : Compositional P) {ε : Type} (f : ε → Fault) (e : Except ε α) :
    P (ofExcept f e) := by
  cases e with
  | error e => exact hP.fail (f e)
  | ok a => exact hP.pure a

theorem Compositional.demandRoom (hP : Compositional P) (e : Option Excess) : P (demandRoom e) := by
  cases e with
  | none => exact hP.pure ()
  | some e => exact hP.fail (.excess e)

end Compositional

/-! Actions that leave files alone -/

def Observes {α : Type} (x : Act α) : Prop := ∀ w, (x w).2.tree = w.tree ∧ (x w).2.cwd = w.cwd

def Still {α : Type} (x : Act α) : Prop := ∀ w, (x w).2 = w

/-- Everything is as it was, and what comes of it hangs on the files and the directory alone. -/
def Looks {α : Type} (x : Act α) : Prop :=
  ∀ w, (x w).2 = w ∧ ∀ v, v.tree = w.tree → v.cwd = w.cwd → (x v).1 = (x w).1

section Observes
variable {α β : Type} {x : Act α} {f : α → Act β}

theorem Observes.bind (hx : Observes x) (hf : ∀ a, Observes (f a)) : Observes (x >>= f) :=
  bind_keeps (R := fun w w' => w'.tree = w.tree ∧ w'.cwd = w.cwd)
    (fun h h' => ⟨h'.1.trans h.1, h'.2.trans h.2⟩) hx hf

theorem Still.bind (hx : Still x) (hf : ∀ a, Still (f a)) : Still (x >>= f) :=
  bind_keeps (R := fun w w' => w' = w) (fun h h' => h'.trans h) hx hf

theorem Still.observes (h : Still x) : Observes x := by
  intro w
  rw [h w]
  exact ⟨rfl, rfl⟩

theorem Looks.still (h : Looks x) : Still x := fun w => (h w).1

theorem Looks.observes (h : Looks x) : Observes x := h.still.observes

theorem Looks.bind (hx : Looks x) (hf : ∀ a, Looks (f a)) : Looks (x >>= f) := by
  intro w
  refine ⟨hx.still.bind (fun a => (hf a).still) w, fun v htree hcwd => ?_⟩
  have hsame := (hx w).2 v htree hcwd
  have hv := hx.still v
  have hw := hx.still w
  rw [bind_apply, bind_apply]
  rcases hxv : x v with ⟨r, v'⟩
  rcases hxw : x w with ⟨r', w'⟩
  rw [hxv, hxw] at hsame
  rw [hxv] at hv
  rw [hxw] at hw
  obtain rfl : r = r' := hsame
  obtain rfl : v' = v := hv
  obtain rfl : w' = w := hw
  cases r with
  | error e => rfl
  | ok a => exact (hf a w').2 v' htree hcwd

theorem Looks.bind_fst_eq_ok (hx : Looks x) {w : Workspace} {b : β} :
    ((x >>= f) w).1 = .ok b ↔ ∃ a, (x w).1 = .ok a ∧ (f a w).1 = .ok b := by
  rw [Masthead.bind_fst_eq_ok, hx.still]

theorem Looks.fst_said (hx : Looks x) (w : Workspace) (errors : List Log.Entry) :
    (x { w with errors }).1 = (x w).1 :=
  (hx w).2 _ rfl rfl

end Observes

theorem observes_compositional : Compositional Observes where
  pure _ _ := ⟨rfl, rfl⟩
  fail _ _ := ⟨rfl, rfl⟩
  bind := .bind
  attempt h := h

theorem looks_compositional : Compositional Looks where
  pure _ _ := ⟨rfl, fun _ _ _ => rfl⟩
  fail _ _ := ⟨rfl, fun _ _ _ => rfl⟩
  bind := .bind
  attempt h w := ⟨(h w).1, fun v htree hcwd => congrArg Except.ok ((h w).2 v htree hcwd)⟩

end Act

namespace Git
open Act (Compositional Observes)

section Compositional
variable {P : ∀ {α : Type}, Act α → Prop}

theorem years_of_run (hP : Compositional P)
    (hrun : ∀ arguments directory, P (run arguments directory)) (path : Path) : P (years path) := by
  refine hP.bind (hrun _ _) fun output => ?_
  cases output with
  | none => exact hP.pure _
  | some output =>
    refine hP.bind (hP.ofExcept _ _) fun numbers => ?_
    cases numbers <;> exact hP.pure _

theorem authors_of_run (hP : Compositional P)
    (hrun : ∀ arguments directory, P (run arguments directory)) (path : Path)
    (selection : Selection) (limit : Int) : P (authors path selection limit) := by
  rw [authors]
  split_ifs
  · exact hP.pure _
  · cases selection with
    | manual => exact hP.pure _
    | lines =>
      refine hP.bind (hrun _ _) fun output => ?_
      rcases output with _ | _ | ⟨c, log⟩
      · exact hP.pure _
      · exact hP.pure _
      · exact hP.bind (hP.ofExcept _ _) fun ranked => hP.pure _
    | commits => exact hP.bind (hrun _ _) fun output => hP.pure _
    | recent => exact hP.bind (hrun _ _) fun output => hP.pure _

theorem past_of_run (hP : Compositional P)
    (hrun : ∀ arguments directory, P (run arguments directory)) (c : Config) (path : Path) :
    P (past c path) := by
  refine hP.bind (years_of_run hP hrun path) fun years => ?_
  cases c.question? with
  | none => exact hP.pure _
  | some question => exact hP.bind (authors_of_run hP hrun _ _ _) fun ranked => hP.pure _

end Compositional

def Reply.answer? : Reply → Option Text
  | .exit 0 output => some (Text.stripRight output)
  | _ => none

def callOf (arguments : List Text) (directory : Path) (w : Workspace) : Call :=
  ⟨arguments, Tree.collapse (Act.start directory w ++ directory.parts)⟩

theorem run_eq (arguments : List Text) (directory : Path) (w : Workspace) :
    run arguments directory w =
      (.ok (w.git w.calls (callOf arguments directory w)).answer?,
        { w with calls := w.calls ++ [callOf arguments directory w] }) := by
  rw [run, bind_of_ok _ (Act.startOf_eq _ _),
    bind_of_ok _ (show (get : Act Workspace) w = (.ok w, w) from rfl),
    bind_of_ok _ (show (set _ : Act Unit) w = (.ok (), _) from rfl)]
  rw [← callOf]
  generalize w.git w.calls _ = reply
  split
  · rfl
  · next hnot =>
    rw [Reply.answer?]
    · rfl
    · exact hnot

def valueOf : Option Text → Option Text
  | some (c :: output) => some (Text.strip (c :: output))
  | _ => none

theorem setting_eq (key : Text) (directory : Path) (w : Workspace) :
    setting key directory w =
      (.ok (valueOf (w.git w.calls (callOf ["config", "--get", key] directory w)).answer?),
        { w with calls := w.calls ++ [callOf ["config", "--get", key] directory w] }) := by
  rw [setting, bind_of_ok _ (run_eq _ _ _)]
  rcases (w.git w.calls (callOf ["config", "--get", key] directory w)).answer?
    with _ | _ | _ <;> rfl

theorem setting_fst (key : Text) (directory : Path) (w : Workspace) :
    (setting key directory w).1 =
      .ok (valueOf (w.git w.calls (callOf ["config", "--get", key] directory w)).answer?) :=
  congrArg Prod.fst (setting_eq key directory w)

theorem observes_run (arguments : List Text) (directory : Path) :
    Observes (run arguments directory) := by
  intro w
  rw [run_eq]
  exact ⟨rfl, rfl⟩

theorem observes_past (c : Config) (path : Path) : Observes (past c path) :=
  past_of_run Act.observes_compositional observes_run c path

end Git
end Masthead
