import Masthead.Proofs.Config.Loading
import Masthead.Proofs.Workspace.Writing

/-! Making directories. Only directories come to be, on the way along the path, where nothing was
before; every way that had an end still ends there. -/

namespace Masthead

namespace Tree
variable {t t' t'' : Tree} {place here q : Place} {names more : List Text} {es : List (Text × Tree)}
  {links : Nat}
  {new new' : Place → Prop}

/-- Directories have come to be where nothing was, at places of one kind. All else is as it was. -/
def Grown (new : Place → Prop) (t t' : Tree) : Prop :=
  ∀ q, (t'.at? q).map surface = (t.at? q).map surface ∨
    t.at? q = none ∧ new q ∧ (t'.at? q).map surface = some (.dir [])

def Passes (t : Tree) (here : Place) (names : List Text) (q : Place) : Prop :=
  ∃ way, way <+: names ∧ t.follow linkLimit here way = .ok q

theorem Passes.imp (h : Passes t here names q)
    (hway : ∀ way, t.follow linkLimit here way = .ok q → t'.follow linkLimit here way = .ok q) :
    Passes t' here names q := by
  obtain ⟨way, hprefix, hfollow⟩ := h
  exact ⟨way, hprefix, hway way hfollow⟩

namespace Grown

theorem refl (new : Place → Prop) (t : Tree) : Grown new t t := fun _ => Or.inl rfl

theorem imp (h : Grown new t t') (hnew : ∀ q, new q → new' q) : Grown new' t t' :=
  fun q => (h q).imp_right fun ⟨hnone, hq, hdir⟩ => ⟨hnone, hnew q hq, hdir⟩

theorem at?_none (h : Grown new t t') (hat : t'.at? q = none) : t.at? q = none := by
  rcases h q with hsame | ⟨hnone, -, -⟩
  · rw [hat] at hsame
    exact Option.map_eq_none_iff.mp hsame.symm
  · exact hnone

theorem at?_file (h : Grown new t t') {bytes : List UInt8} {b : Bool}
    (hat : t'.at? q = some (.file bytes b)) :
    t.at? q = some (.file bytes b) := by
  rcases h q with hsame | ⟨-, -, hdir⟩
  · rw [hat] at hsame
    exact eq_file_of_surface hsame.symm
  · rw [hat] at hdir
    cases hdir

theorem trans (h : Grown new t t') (h' : Grown new t' t'') : Grown new t t'' := by
  intro q
  rcases h' q with hsame' | ⟨hnone, hq, hdir⟩
  · rw [hsame']
    exact h q
  · exact Or.inr ⟨h.at?_none hnone, hq, hdir⟩

theorem surface_eq (h : Grown new t t') {u : Tree} (hat : t.at? q = some u) :
    (t'.at? q).map surface = some u.surface := by
  rcases h q with hsame | ⟨hnone, -, -⟩
  · rw [hsame, hat]
    rfl
  · rw [hat] at hnone
    cases hnone

theorem follow_eq_ok (h : Grown new t t') (hway : t.follow links here names = .ok place) :
    t'.follow links here names = .ok place := by
  rw [follow_eq_ok_iff] at hway ⊢
  induction hway with
  | done links here => exact .done links here
  | up hup _ ih => exact .up hup ih
  | dir hup hshort hat _ ih =>
    obtain ⟨es', hat'⟩ := exists_dir_of_surface (h.surface_eq hat)
    exact .dir hup hshort hat' ih
  | link hup hshort hat _ ih => exact .link hup hshort (eq_link_of_surface (h.surface_eq hat)) ih
  | @last links here name hup hshort hat =>
    rcases h (here ++ [name]) with hsame | ⟨-, -, hdir⟩
    · refine .last hup hshort (hat.imp (fun hnone => ?_) ?_)
      · rw [hnone] at hsame
        exact Option.map_eq_none_iff.mp hsame
      · rintro ⟨bytes, b, hfile⟩
        exact ⟨bytes, b, eq_file_of_surface (h.surface_eq hfile)⟩
    · -- where nothing was, a directory has come to be, and the way ends in it
      obtain ⟨es', hat'⟩ := exists_dir_of_surface hdir
      exact .dir hup hshort hat' (.done links _)

end Grown

theorem grown_entry {name : Text} (h : (dir es).child? name = none) :
    Grown (· = [name]) (dir es) (alter (fun _ => some (.dir [])) [name] (dir es)) := by
  intro q
  cases q with
  | nil => exact Or.inl rfl
  | cons n q =>
    rw [alter, at?, at?, child?_alterEntry rfl]
    by_cases hn : name = n
    · subst hn
      rw [if_pos rfl, h]
      cases q with
      | nil => exact Or.inr ⟨rfl, rfl, rfl⟩
      | cons m q => exact Or.inl rfl
    · rw [if_neg hn]
      exact Or.inl rfl

/-- A directory that is made where nothing is comes to be there, if anything does. -/
theorem grown_alter (h : t.at? place = none) :
    Grown (· = place) t (alter (fun _ => some (.dir [])) place t) := by
  -- along the place; where a name on it is missing or is no directory, the change does nothing
  induction place generalizing t with
  | nil => cases h
  | cons name place ih =>
    cases t with
    | file bytes b => cases place <;> exact .refl _ _
    | link target => cases place <;> exact .refl _ _
    | dir es =>
      cases place with
      | nil =>
        refine grown_entry ?_
        rw [at?] at h
        cases hc : (dir es).child? name with
        | none => rfl
        | some c =>
          rw [hc] at h
          cases h
      | cons m place =>
        intro q
        cases q with
        | nil => exact Or.inl rfl
        | cons n q =>
          have halter : alter (fun _ => some (.dir [])) (name :: m :: place) (dir es) =
              .dir (es.map fun e =>
              if e.1 = name then (e.1, alter (fun _ => some (.dir [])) (m :: place) e.2)
              else e) := rfl
          rw [halter, at?, at?, child?_map]
          by_cases hn : name = n
          · subst hn
            rw [if_pos rfl]
            rw [at?] at h
            cases hc : (dir es).child? name with
            | none => exact Or.inl rfl
            | some c =>
              rw [hc] at h
              rcases ih h q with hsame | ⟨hnone, rfl, hdir⟩
              · exact Or.inl hsame
              · exact Or.inr ⟨hnone, rfl, hdir⟩
          · rw [if_neg hn]
            exact Or.inl rfl

end Tree

namespace Act
variable {p : Path} {w w' w'' : Workspace}

/-- Nothing has changed but that directories may have been made on the way along a path. -/
structure Paved (p : Path) (w w' : Workspace) : Prop where
  tree : Tree.Grown (w'.tree.Passes (start p w) p.parts) w.tree w'.tree
  cwd : w'.cwd = w.cwd

theorem Paved.of_tree (htree : w'.tree = w.tree) (hcwd : w'.cwd = w.cwd) : Paved p w w' := by
  refine ⟨?_, hcwd⟩
  rw [htree]
  exact .refl _ _

theorem Paved.trans (h : Paved p w w') (h' : Paved p w' w'') : Paved p w w'' := by
  have hstart : start p w' = start p w := start_congr p h.cwd
  refine ⟨(h.tree.imp fun q hq => ?_).trans (h'.tree.imp fun q hq => ?_), h'.cwd.trans h.cwd⟩
  · exact hq.imp fun way => h'.tree.follow_eq_ok
  · rwa [← hstart]

theorem Paved.of_parent (h : Paved p.parent w w') : Paved p w w' := by
  refine ⟨h.tree.imp fun q hq => ?_, h.cwd⟩
  obtain ⟨way, hway, hfollow⟩ := hq
  exact ⟨way, hway.trans (List.dropLast_prefix _), hfollow⟩

theorem Observes.paved {α : Type} {x : Act α} (h : Observes x) (p : Path) (w : Workspace) :
    Paved p w (x w).2 :=
  .of_tree (h w).1 (h w).2

theorem looks_isDir (p : Path) : Looks (isDir p) :=
  ((looks_lookUp p).bind fun _ => looks_compositional.pure _).bind fun _ =>
    looks_compositional.pure _

def endsInLink (p : Path) (w : Workspace) : Bool :=
  match w.tree.at? (w.tree.real (start p.parent w) p.parent.parts ++ [p.name]) with
  | some (.link _) => true
  | _ => false

theorem isLink_eq (p : Path) (w : Workspace) : isLink p w = (.ok (endsInLink p w), w) := by
  rw [isLink, bind_of_ok _ (show (get : Act Workspace) w = (.ok w, w) from rfl),
    bind_of_ok _ (realPlace_eq _ _), endsInLink]
  rcases w.tree.at? (w.tree.real (start p.parent w) p.parent.parts ++ [p.name])
    with _ | _ | _ | _ <;> rfl

theorem looks_isLink (p : Path) : Looks (isLink p) := by
  intro w
  rw [isLink_eq]
  refine ⟨rfl, fun v htree hcwd => ?_⟩
  rw [isLink_eq, endsInLink, endsInLink, htree, start_congr _ hcwd]

theorem paved_addDir {place : Tree.Place}
    (hfind : w.tree.find (start p w) p.parts = .ok (place, none)) :
    Paved p w (addDir place w).2 := by
  obtain ⟨hway, hnone⟩ := Tree.find_eq_ok_iff.mp hfind
  have hgrown := Tree.grown_alter hnone
  refine ⟨hgrown.imp ?_, rfl⟩
  rintro _ rfl
  exact ⟨p.parts, List.prefix_rfl, hgrown.follow_eq_ok hway⟩

theorem paved_makeOne (p : Path) (w : Workspace) : Paved p w (makeOne p w).2 := by
  refine bind_keeps (R := Paved p) Paved.trans ((looks_isDir p).observes.paved p)
    (fun isDir w => ?_) w
  split_ifs
  · exact .of_tree rfl rfl
  · refine bind_keeps (R := Paved p) Paved.trans ((looks_isLink p).observes.paved p)
      (fun isLink w => ?_) w
    split_ifs
    · exact .of_tree rfl rfl
    · rw [bind_apply, find_eq]
      split_ifs
      · exact .of_tree rfl rfl
      · exact .of_tree rfl rfl
      · rcases hfind : w.tree.find (start p w) p.parts with e | ⟨place, _ | t⟩
        · exact .of_tree rfl rfl
        · exact paved_addDir hfind
        · exact .of_tree rfl rfl

theorem paved_makeDirs (p : Path) (above : Nat) (w : Workspace) :
    Paved p w (makeDirs p above w).2 := by
  -- what is made above is on the way to what is above, which is a part of the way; nothing is taken
  -- back on a failure
  induction above generalizing p w with
  | zero => exact .of_tree rfl rfl
  | succ above ih =>
    refine bind_keeps (R := Paved p) (x := attempt (makeOne p)) Paved.trans (paved_makeOne p)
      (fun made w => ?_) w
    split
    · exact .of_tree rfl rfl
    · exact bind_keeps (R := Paved p) Paved.trans (fun w => (ih p.parent w).of_parent)
        (fun _ => paved_makeOne p) w
    · exact .of_tree rfl rfl

end Act
end Masthead
