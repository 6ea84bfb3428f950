import Masthead.Proofs.Workspace.Following
import Masthead.Proofs.Workspace.Looking

/-! Writing a file that may be a new one. Paths lead to the same places as before, and only those
that lead to the file find anything else there. -/

namespace Masthead

namespace Tree
variable {t t' u v : Tree} {place parent here q : Place} {name : Text} {names : List Text}
  {es : List (Text × Tree)}
  {f : Option Tree → Option Tree} {new old : List UInt8} {links : Nat}

def surface : Tree → Tree
  | .dir _ => .dir []
  | t => t

section Surface
variable {x : Option Tree}

theorem exists_dir_of_surface (h : x.map surface = some (.dir [])) : ∃ es, x = some (.dir es) := by
  obtain ⟨u, rfl, hsurface⟩ := Option.map_eq_some_iff.mp h
  cases u with
  | dir es => exact ⟨es, rfl⟩
  | _ => cases hsurface

theorem eq_link_of_surface {target : Text} (h : x.map surface = some (.link target)) :
    x = some (.link target) := by
  obtain ⟨u, rfl, hsurface⟩ := Option.map_eq_some_iff.mp h
  cases u with
  | dir es => cases hsurface
  | _ => exact congrArg some hsurface

theorem eq_file_of_surface {b : Bool} (h : x.map surface = some (.file old b)) :
    x = some (.file old b) := by
  obtain ⟨u, rfl, hsurface⟩ := Option.map_eq_some_iff.mp h
  cases u with
  | dir es => cases hsurface
  | _ => exact congrArg some hsurface

end Surface

/-- The file at a place has new bytes, or has come to be there. -/
structure Written (place : Place) (new : List UInt8) (t t' : Tree) : Prop where
  before : t.at? place = none ∨ ∃ old b, t.at? place = some (.file old b)
  after : ∃ b, t'.at? place = some (.file new b)
  elsewhere : ∀ q, q ≠ place → (t'.at? q).map surface = (t.at? q).map surface

theorem at?_alter_entry (hparent : t.at? parent = some (.dir es))
    (hf : f ((dir es).child? name) = some v) :
    (∀ q, ¬ parent ++ [name] <+: q → ((alter f (parent ++ [name]) t).at? q).map surface =
      (t.at? q).map surface) ∧
      ∀ more, (alter f (parent ++ [name]) t).at? (parent ++ [name] ++ more) = v.at? more := by
  induction parent generalizing t with
  | nil =>
    obtain rfl := Option.some.inj hparent
    rw [List.nil_append, alter]
    constructor
    · intro q hq
      cases q with
      | nil => rfl
      | cons n q =>
        have hn : name ≠ n := by
          rintro rfl
          exact hq (by simp)
        rw [at?, at?, child?_alterEntry hf, if_neg hn]
    · intro more
      rw [List.singleton_append, at?, child?_alterEntry hf, if_pos rfl]
  | cons n parent ih =>
    obtain ⟨c, hc, hbelow⟩ := at?_cons_eq_some hparent
    obtain ⟨entries, rfl⟩ := exists_dir_of_child? hc
    obtain ⟨helse, hthere⟩ := ih hbelow
    have halter : alter f (n :: parent ++ [name]) (dir entries) =
        .dir (entries.map fun e => if e.1 = n then (e.1, alter f (parent ++ [name]) e.2)
          else e) := by
      cases parent <;> rfl
    rw [halter]
    constructor
    · intro q hq
      cases q with
      | nil => rfl
      | cons m q =>
        rw [at?, at?, child?_map]
        by_cases hn : n = m
        · subst hn
          rw [if_pos rfl, hc]
          exact helse q fun hprefix => hq (by simpa using hprefix)
        · rw [if_neg hn]
    · intro more
      rw [List.cons_append, List.cons_append, at?, child?_map, if_pos rfl, hc]
      exact hthere more

theorem child?_at? (hparent : t.at? parent = some (.dir es)) :
    t.at? (parent ++ [name]) = (dir es).child? name := by
  rw [at?_append, hparent]
  change (dir es).at? [name] = _
  rw [at?]
  cases (dir es).child? name <;> rfl

/-- A file that comes to be at a place, or takes the place of another one, is all that changes. -/
theorem at?_alter_file {b : Bool} (hparent : t.at? parent = some (.dir es))
    (hbefore : t.at? (parent ++ [name]) = none ∨ ∃ old b, t.at? (parent ++ [name]) =
      some (.file old b))
    (hf : f (t.at? (parent ++ [name])) = some (.file new b)) :
    (alter f (parent ++ [name]) t).at? (parent ++ [name]) = some (.file new b) ∧
      ∀ q, q ≠ parent ++ [name] → ((alter f (parent ++ [name]) t).at? q).map surface =
      (t.at? q).map surface := by
  rw [child?_at? hparent] at hf
  obtain ⟨helse, hthere⟩ := at?_alter_entry hparent hf
  refine ⟨?_, fun q hq => ?_⟩
  · have hat := hthere []
    rwa [List.append_nil] at hat
  · by_cases hprefix : parent ++ [name] <+: q
    · obtain ⟨more, rfl⟩ := hprefix
      obtain ⟨n, more, rfl⟩ :=
        List.exists_cons_of_ne_nil (show more ≠ [] from fun h => hq (by rw [h, List.append_nil]))
      have hnothing (u : Tree) (hu : u.entries = []) : u.at? (n :: more) = none := by
        simp [at?, child?, hu]
      rw [hthere, hnothing _ rfl, at?_append]
      rcases hbefore with hnone | ⟨old, b, hfile⟩
      · rw [hnone]
        rfl
      · rw [hfile]
        change _ = ((file old b).at? (n :: more)).map surface
        rw [hnothing _ rfl]
    · exact helse q hprefix

theorem written_of_file {b b' : Bool} (hat : t.at? place = some (.file old b))
    (hf : f (some (.file old b)) = some (.file new b')) :
    Written place new t (alter f place t) := by
  refine ⟨Or.inr ⟨old, b, hat⟩, ⟨b', at?_alter hat hf⟩, ?_⟩
  rcases List.eq_nil_or_concat' place with rfl | ⟨parent, name, rfl⟩
  · obtain rfl := Option.some.inj hat
    intro q hq
    obtain ⟨n, q, rfl⟩ := List.exists_cons_of_ne_nil hq
    rw [alter, hf]
    rfl
  · obtain ⟨es, hparent⟩ := exists_dir_of_at?_concat hat
    exact (at?_alter_file hparent (Or.inr ⟨old, b, hat⟩) (by rw [hat, hf])).2

theorem written_alter (hparent : t.at? parent = some (.dir es))
    (hbefore : t.at? (parent ++ [name]) = none ∨ ∃ old b, t.at? (parent ++ [name]) =
      some (.file old b)) :
    Written (parent ++ [name]) new t (alter (Act.refill new) (parent ++ [name]) t) := by
  have hrefill : ∃ b, Act.refill new (t.at? (parent ++ [name])) = some (.file new b) := by
    rcases hbefore with hnone | ⟨old, b, hfile⟩
    · exact ⟨false, by rw [hnone]; rfl⟩
    · exact ⟨b, by rw [hfile]; rfl⟩
  obtain ⟨b, hrefill⟩ := hrefill
  obtain ⟨hthere, helse⟩ := at?_alter_file hparent hbefore hrefill
  exact ⟨hbefore, ⟨b, hthere⟩, helse⟩

namespace Written

theorem at?_none (h : Written place new t t') (hq : q ≠ place) (hat : t.at? q = none) :
    t'.at? q = none := by
  have hsame := h.elsewhere q hq
  rw [hat] at hsame
  exact Option.map_eq_none_iff.mp hsame

theorem ne_of_at? (h : Written place new t t') (hat : t.at? q = some u) (hu : u.isFile = false) :
    q ≠ place := by
  rintro rfl
  rcases h.before with hnone | ⟨old, b, hfile⟩
  · rw [hnone] at hat
    cases hat
  · rw [hfile] at hat
    cases hat
    cases hu

theorem at?_dir (h : Written place new t t') (hat : t.at? q = some (.dir es)) :
    q ≠ place ∧ ∃ es', t'.at? q = some (.dir es') := by
  have hq := h.ne_of_at? hat rfl
  have hsame := h.elsewhere q hq
  rw [hat] at hsame
  exact ⟨hq, exists_dir_of_surface hsame⟩

theorem at?_link (h : Written place new t t') {target : Text}
    (hat : t.at? q = some (.link target)) :
    q ≠ place ∧ t'.at? q = some (.link target) := by
  have hq := h.ne_of_at? hat rfl
  have hsame := h.elsewhere q hq
  rw [hat] at hsame
  exact ⟨hq, eq_link_of_surface hsame⟩

theorem at?_file (h : Written place new t t') (hq : q ≠ place) {b : Bool}
    (hat : t.at? q = some (.file old b)) :
    t'.at? q = some (.file old b) := by
  have hsame := h.elsewhere q hq
  rw [hat] at hsame
  exact eq_file_of_surface hsame

theorem exists_file (h : Written place new t t') {b : Bool} (hat : t.at? q = some (.file old b)) :
    ∃ bytes b', t'.at? q = some (.file bytes b') := by
  by_cases hq : q = place
  · obtain ⟨b', hnew⟩ := h.after
    exact ⟨new, b', hq ▸ hnew⟩
  · exact ⟨old, b, h.at?_file hq hat⟩

theorem of_none (h : Written place new t t') (hat : t.at? q = none) :
    t'.at? q = none ∨ ∃ b, t'.at? q = some (.file new b) := by
  by_cases hq : q = place
  · exact Or.inr (hq ▸ h.after)
  · exact Or.inl (h.at?_none hq hat)

theorem follow (h : Written place new t t') (links : Nat) (here : Place) (names : List Text) :
    t'.follow links here names = t.follow links here names ∨
      t'.follow links here names = .error .notDirectory ∧ t.follow links here names =
      .error .missing := by
  fun_induction Tree.follow t links here names with
  | case1 => exact Or.inl (by rw [Tree.follow])
  | case2 links here name names hup ih =>
    rw [Tree.follow, if_pos hup]
    exact ih
  | case3 links here name names hup hlong =>
      exact Or.inl (by rw [Tree.follow, if_neg hup, if_pos hlong])
  | case4 links here name names hup hlong es hat ih =>
    obtain ⟨-, es', hat'⟩ := h.at?_dir hat
    rw [Tree.follow, if_neg hup, if_neg hlong, hat']
    exact ih
  | case5 here name names hup hlong target hat =>
    exact Or.inl (by rw [Tree.follow, if_neg hup, if_neg hlong, (h.at?_link hat).2])
  | case6 here name names hup hlong target hat links ih =>
    rw [Tree.follow, if_neg hup, if_neg hlong, (h.at?_link hat).2]
    exact ih
  | case7 links here name names hup hlong bytes b hat hnames
  | case8 links here name names hup hlong bytes b hat hnames =>
    obtain ⟨bytes', b', hat'⟩ := h.exists_file hat
    rw [Tree.follow, if_neg hup, if_neg hlong, hat']
    exact Or.inl (by simp [hnames])
  | case9 links here name names hup hlong hat hnames =>
    rw [Tree.follow, if_neg hup, if_neg hlong]
    rcases h.of_none hat with hnone | ⟨b, hfile⟩
    · rw [hnone]
      exact Or.inl (by simp [hnames])
    · rw [hfile]
      exact Or.inl (by simp [hnames])
  | case10 links here name names hup hlong hat hnames =>
    rw [Tree.follow, if_neg hup, if_neg hlong]
    rcases h.of_none hat with hnone | ⟨b, hfile⟩
    · rw [hnone]
      exact Or.inl (by simp [hnames])
    · -- the way goes on behind the new file
      rw [hfile]
      exact Or.inr ⟨by simp [hnames], rfl⟩

theorem follow_eq_ok (h : Written place new t t') {links : Nat} {here : Place} {names : List Text}
    {q : Place} :
    t'.follow links here names = .ok q ↔ t.follow links here names = .ok q := by
  rcases h.follow links here names with heq | ⟨hnew, hold⟩
  · rw [heq]
  · rw [hnew, hold]
    simp

theorem stands (h : Written place new t t') (hq : Stands t q) : Stands t' q := by
  induction hq with
  | top htop =>
    obtain ⟨es, hat⟩ := (Stands.top htop).exists_dir
    obtain ⟨-, es', hat'⟩ := h.at?_dir hat
    obtain rfl := Option.some.inj hat'
    exact .top rfl
  | child _ hname hshort hat ih =>
    obtain ⟨-, es', hat'⟩ := h.at?_dir hat
    exact ih.child hname hshort hat'

end Written
end Tree

structure Workspace.Written (place : Tree.Place) (new : List UInt8) (w w' : Workspace) : Prop where
  tree : Tree.Written place new w.tree w'.tree
  cwd : w'.cwd = w.cwd

namespace Act
variable {p : Path} {w w' : Workspace} {place q : Tree.Place} {new bytes : List UInt8} {b : Bool}

/-- The way along a path ends at the place. -/
structure Aims (p : Path) (w : Workspace) (place : Tree.Place) : Prop where
  valid : p.hasNull = false
  short : ¬ pathLimit < Tree.byteCount p.text
  way : w.tree.follow Tree.linkLimit (start p w) p.parts = .ok place

theorem LeadsTo.aims (h : LeadsTo p w place bytes b) :
    Aims p w place ∧ w.tree.at? place = some (.file bytes b) := by
  obtain ⟨hway, hat⟩ := Tree.find_eq_ok_iff.mp h.found
  exact ⟨⟨h.valid, h.short, hway⟩, hat⟩

theorem Aims.leadsTo (h : Aims p w place) (hat : w.tree.at? place = some (.file bytes b)) :
    LeadsTo p w place bytes b :=
  ⟨h.valid, h.short, Tree.find_eq_ok_iff.mpr ⟨h.way, hat⟩⟩

theorem Aims.inj (h : Aims p w place) (h' : Aims p w q) : place = q :=
  Except.ok.inj (h.way.symm.trans h'.way)

theorem Aims.seen_eq (h : Aims p w place) :
    seen p w = .ok ((w.tree.at? place).map fun t => (place, t)) := by
  rw [seen, if_neg (by simp [h.valid]), if_neg h.short, Tree.find, h.way]
  rfl

theorem seen_eq_some {t : Tree} (h : seen p w = .ok (some (place, t))) :
    Aims p w place ∧ w.tree.at? place = some t := by
  rw [seen] at h
  split_ifs at h with hnull hlong
  · cases h
  · rcases hfind : w.tree.find (start p w) p.parts with e | ⟨q, _ | u⟩
    · rw [hfind] at h
      cases e <;> cases h
    · rw [hfind] at h
      cases h
    · rw [hfind] at h
      cases h
      obtain ⟨hway, hat⟩ := Tree.find_eq_ok_iff.mp hfind
      exact ⟨⟨by simpa using hnull, hlong, hway⟩, hat⟩

theorem LeadsTo.makeExecutable (h : LeadsTo p w place bytes b) :
    ∃ tree, Act.makeExecutable p w = (.ok (), { w with tree }) ∧
    LeadsTo p { w with tree } place bytes true ∧
      w.Written place bytes { w with tree } := by
  have hrun : Act.makeExecutable p w =
      (.ok (), { w with tree := Tree.alter (fun _ => some (.file bytes true)) place w.tree }) := by
    rw [Act.makeExecutable, bind_of_ok _ h.find]
    rfl
  exact ⟨_, hrun, ⟨h.valid, h.short, Tree.find_alter h.found rfl⟩,
    Tree.written_of_file h.aims.2 rfl, rfl⟩

section Written
variable (hw : w.Written place new w')
include hw

theorem start_written (p : Path) : start p w' = start p w := by rw [start, start, hw.cwd]

theorem aims_written : Aims p w' q ↔ Aims p w q := by
  constructor
  · rintro ⟨hvalid, hshort, hway⟩
    rw [start_written hw, hw.tree.follow_eq_ok] at hway
    exact ⟨hvalid, hshort, hway⟩
  · rintro ⟨hvalid, hshort, hway⟩
    exact ⟨hvalid, hshort, by rwa [start_written hw, hw.tree.follow_eq_ok]⟩

theorem Aims.written (h : Aims p w place) : ∃ b, LeadsTo p w' place new b := by
  obtain ⟨b, hat⟩ := hw.tree.after
  exact ⟨b, ((aims_written hw).mpr h).leadsTo hat⟩

theorem LeadsTo.written (h : LeadsTo p w q bytes b) (hplace : ¬ Aims p w place) :
    LeadsTo p w' q bytes b := by
  obtain ⟨haims, hat⟩ := h.aims
  have hq : q ≠ place := by
    rintro rfl
    exact hplace haims
  exact ((aims_written hw).mpr haims).leadsTo (hw.tree.at?_file hq hat)

theorem isFile_written (hplace : ¬ Aims p w place) : (isFile p w').1 = (isFile p w).1 := by
  rw [isFile_fst, isFile_fst]
  by_cases hnull : p.hasNull = true
  · rw [seen, seen, if_pos hnull, if_pos hnull]
  by_cases hlong : pathLimit < Tree.byteCount p.text
  · rw [seen, seen, if_neg hnull, if_neg hnull, if_pos hlong, if_pos hlong]
  rw [seen, seen, if_neg hnull, if_neg hnull, if_neg hlong, if_neg hlong, start_written hw,
    Tree.find, Tree.find]
  rcases hw.tree.follow Tree.linkLimit (start p w) p.parts with heq | ⟨hnew, hold⟩
  · rw [heq]
    cases hway : w.tree.follow Tree.linkLimit (start p w) p.parts with
    | error e => rfl
    | ok q =>
      have hq : q ≠ place := by
        rintro rfl
        exact hplace ⟨by simpa using hnull, hlong, hway⟩
      change Except.ok (Option.any _ (Option.map _ (Option.map _ (w'.tree.at? q)))) =
        Except.ok (Option.any _ (Option.map _ (Option.map _ (w.tree.at? q))))
      have hsame := hw.tree.elsewhere q hq
      have hsurface (t : Tree) : t.surface.isFile = t.isFile := by cases t <;> rfl
      have hfile (t : Option Tree) :
          ((t.map fun t => (q, t)).map (·.2)).any (·.isFile) =
          (t.map Tree.surface).any (·.isFile) := by
        cases t with
        | none => rfl
        | some t => exact (hsurface t).symm
      rw [hfile, hfile, hsame]
  · rw [hnew, hold]
    rfl

end Written

theorem written_of_lands {s : Text}
    (hlands : ∀ place, w.tree.follow Tree.linkLimit (start p w) p.parts = .ok place →
      Tree.Lands w.tree place)
    (h : writeText p s w = (.ok (), w')) :
    ∃ place tree, Aims p w place ∧ w' = { w with tree } ∧ w.Written place (Utf8.encode s) w' := by
  rw [writeText, writeBytes, bind_apply, find_eq] at h
  split_ifs at h with hnull hlong
  · cases h
  · cases h
  · rcases hfind : w.tree.find (start p w) p.parts with e | ⟨place, u⟩
    · rw [hfind] at h
      cases h
    · obtain ⟨hway, hu⟩ := Tree.find_eq_ok_iff.mp hfind
      have haims : Aims p w place := ⟨by simpa using hnull, hlong, hway⟩
      rw [hfind, ← hu] at h
      cases hlands place hway with
      | dir hdir =>
        rw [hdir] at h
        cases h
      | @entry parent name es hdir hat =>
        have hset : w' =
            { w with tree := Tree.alter (refill (Utf8.encode s)) (parent ++ [name]) w.tree } := by
          obtain hnone | ⟨bytes, b, hfile⟩ := hat
          · rw [hnone] at h
            cases h
            rfl
          · rw [hfile] at h
            cases h
            rfl
        subst hset
        exact ⟨_, _, haims, rfl, Tree.written_alter hdir hat, rfl⟩

theorem written_of_writeText {s : Text} (hstart : Tree.Stands w.tree (start p w))
    (h : writeText p s w = (.ok (), w')) :
    ∃ place tree, Aims p w place ∧ w' = { w with tree } ∧ w.Written place (Utf8.encode s) w' :=
  written_of_lands (fun _ hway => (hstart.ends hway).lands) h

end Act
end Masthead
