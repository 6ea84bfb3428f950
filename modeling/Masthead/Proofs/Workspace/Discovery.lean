import Masthead.Command.Console
import Masthead.Proofs.Config.Loading
import Masthead.Proofs.Workspace.Files
import Masthead.Proofs.Workspace.Places

/-! Finding files. Whatever entries a command is given, each of the paths that are found is the one
that some place is reported under, and none of them comes twice. -/

namespace Masthead

/-- Files as they can be, without links among them. -/
structure Workspace.IsPlain (w : Workspace) : Prop where
  linkless : w.tree.linkCount = 0
  named : w.tree.IsNamed
  inNamed : ∀ name ∈ w.cwd, Tree.IsName name

namespace Tree
variable {t u : Tree} {place : Place}

theorem IsNamedIn.mem {es : List (Text × Tree)} (h : IsNamedIn es) {e : Text × Tree} (he : e ∈ es) :
    e.2.IsNamed := by
  induction es with
  | nil => cases he
  | cons f es ih =>
    obtain ⟨-, hf, hes⟩ := h
    rcases List.mem_cons.mp he with rfl | he
    · exact hf
    · exact ih hes he

theorem IsNamed.at? (h : t.IsNamed) (hat : t.at? place = some u) : u.IsNamed := by
  induction place generalizing t with
  | nil =>
    obtain rfl := Option.some.inj hat
    exact h
  | cons name place ih =>
    obtain ⟨c, hc, hu⟩ := at?_cons_eq_some hat
    obtain ⟨es, rfl⟩ := exists_dir_of_child? hc
    obtain ⟨e, he, rfl⟩ := Option.map_eq_some_iff.mp hc
    exact ih (IsNamedIn.mem h (List.mem_of_find?_eq_some he)) hu

end Tree

theorem nodup_eraseDups {α : Type} [BEq α] [LawfulBEq α] (l : List α) : l.eraseDups.Nodup := by
  match l with
  | [] => simp
  | a :: l =>
    rw [List.eraseDups_cons, List.nodup_cons]
    exact ⟨by simp [List.mem_eraseDups], nodup_eraseDups _⟩
termination_by l.length
decreasing_by exact Nat.lt_succ_of_le (List.length_filter_le _ _)

namespace Act

theorem mapM_induct {α β : Type} {I : Workspace → Prop} {Q : β → Prop} {x : α → Act β} {l : List α}
    (hx : ∀ a ∈ l, ∀ w b w', I w → x a w = (.ok b, w') → I w' ∧ Q b) {w w' : Workspace}
    {bs : List β} (hw : I w) (h : l.mapM x w = (.ok bs, w')) : I w' ∧ ∀ b ∈ bs, Q b := by
  induction l generalizing w bs with
  | nil =>
    cases h
    exact ⟨hw, by simp⟩
  | cons a l ih =>
    rw [List.forall_mem_cons] at hx
    rw [List.mapM_cons] at h
    obtain ⟨b, w₁, hb, hrest⟩ := bind_eq_ok h
    obtain ⟨bs', w₂, hbs, hend⟩ := bind_eq_ok hrest
    cases hend
    obtain ⟨hw₁, hQ⟩ := hx.1 w b w₁ hw hb
    obtain ⟨hw₂, hQs⟩ := ih hx.2 hw₁ hbs
    exact ⟨hw₂, List.forall_mem_cons.mpr ⟨hQ, hQs⟩⟩

section
variable {p : Path} {w w' : Workspace} {place : Tree.Place} {t : Tree}

theorem lookUp_eq_ok {found : Option (Tree.Place × Tree)} (h : lookUp p w = (.ok found, w')) :
    w' = w ∧ ∀ place t, found = some (place, t) → w.tree.find (start p w) p.parts =
    .ok (place, some t) := by
  rw [lookUp] at h
  split_ifs at h with hnull
  · cases h
    exact ⟨rfl, by simp⟩
  · obtain ⟨r, w₁, hfind, hrest⟩ := bind_eq_ok h
    rw [find_eq, if_neg hnull] at hfind
    split_ifs at hfind with hlong
    · cases hfind
      cases hrest
    · obtain ⟨hr, rfl⟩ := Prod.mk.inj hfind
      obtain rfl := Except.ok.inj hr
      cases hx : w.tree.find (start p w) p.parts with
      | error e =>
        rw [hx] at hrest
        cases e <;> cases hrest <;> exact ⟨rfl, by simp⟩
      | ok r =>
        obtain ⟨q, u⟩ := r
        rw [hx] at hrest
        cases hrest
        refine ⟨rfl, fun place t h => ?_⟩
        obtain ⟨t', rfl, heq⟩ := Option.map_eq_some_iff.mp h
        cases heq
        rfl

theorem resolve_here {q : Path} (hcwd : ∀ name ∈ w.cwd, Tree.IsName name)
    (h : resolve Command.here w = (.ok q, w')) : q = ofPlace w.cwd ∧ w' = w := by
  have hplace : realPlace Command.here w = (.ok w.cwd, w) := by
    change (Except.ok (Tree.collapse (Tree.realFrom w.tree (w.tree.linkCount + 1) [] w.cwd []).1),
      w) = _
    rw [Tree.realFrom, Discovery.collapse_names fun name hname => (hcwd name hname).2]
  rw [resolve, if_neg (by decide), bind_of_ok _ hplace] at h
  obtain ⟨r, w₁, hfind, hend⟩ := bind_eq_ok h
  have hw : w₁ = w := by
    rw [find_eq] at hfind
    split_ifs at hfind <;> cases hfind <;> rfl
  subst hw
  split at hend
  · cases hend
  · cases hend
    exact ⟨rfl, rfl⟩

end
end Act

namespace Discovery
open Masthead.Tree (Place IsName IsNamed IsNamedIn isUp)
variable {base : Place}

def IsReported (base : Place) (path : Text) : Prop :=
  ∃ place, (∀ name ∈ place, IsName name) ∧ path = reported base place

section Below
variable {top : Tree} {excludes : List Text} {path : Text}

mutual

theorem isReported_filesAt {here names : Place} (hnames : ∀ name ∈ names, IsName name) :
    ∀ t : Tree, t.IsNamed → path ∈ filesAt top base excludes here names t → IsReported base path
  | .file .., _, h => ⟨names, hnames, by simpa [filesAt] using h⟩
  | .dir es, ht, h => by
    rw [filesAt] at h
    split_ifs at h
    · cases h
    · exact isReported_filesIn hnames es ht h
  | .link _, _, h => by
    rw [filesAt] at h
    split_ifs at h
    · cases h
    · exact ⟨names, hnames, by simpa using h⟩

theorem isReported_filesIn {here names : Place} (hnames : ∀ name ∈ names, IsName name) :
    ∀ es : List (Text × Tree), IsNamedIn es → path ∈ filesIn top base excludes here names es →
    IsReported base path
  | [], _, h => by simp [filesIn] at h
  | (name, t) :: es, hes, h => by
    obtain ⟨hname, ht, hrest⟩ := hes
    rw [filesIn] at h
    rcases List.mem_append.mp h with h | h
    · exact isReported_filesAt (by simpa [or_imp, forall_and] using ⟨hnames, hname⟩) t ht h
    · exact isReported_filesIn hnames es hrest h

end

end Below

section Entries
variable {w w' : Workspace} {excludes includes : List Text}

theorem start_join_ofPlace (base : Place) (p : Path) (w : Workspace) :
    Act.start ((Act.ofPlace base).join p) w = [] := by
  rw [Path.join]
  split_ifs with habsolute
  · exact if_pos habsolute
  · rfl

theorem isName_of_mem_join (hbase : ∀ name ∈ base, IsName name) {entry : Text}
    (hentry : ∀ part ∈ (Path.ofText entry).parts, isUp part = false) :
    ∀ name ∈ ((Act.ofPlace base).join (Path.ofText entry)).parts, IsName name := by
  have hparts : ∀ part ∈ (Path.ofText entry).parts, IsName part :=
    fun part hpart => ⟨Path.isPart_of_mem_ofText hpart, hentry part hpart⟩
  rw [Path.join]
  split_ifs
  · exact hparts
  · exact fun name hname => (List.mem_append.mp hname).elim (hbase name) (hparts name)

theorem isReported_candidates (hlinks : w.tree.linkCount = 0) (hnamed : w.tree.IsNamed)
    (hbase : ∀ name ∈ base, IsName name) {entry : Text}
    (hentry : ∀ part ∈ (Path.ofText entry).parts, isUp part = false) {paths : List Text}
    (h : candidates base excludes entry w = (.ok paths, w')) :
    w'.tree = w.tree ∧ ∀ path ∈ paths, IsReported base path := by
  have hnames := isName_of_mem_join hbase hentry
  rw [candidates] at h
  obtain ⟨found, w₁, hlook, hrest⟩ := bind_eq_ok h
  obtain ⟨rfl, hfound⟩ := Act.lookUp_eq_ok hlook
  -- without double dots a path leads to the place with its own names
  have hplace : ∀ place t, found = some (place, t) →
      place = ((Act.ofPlace base).join (Path.ofText entry)).parts ∧ w₁.tree.at? place = some t := by
    intro place t hsome
    obtain ⟨hq, hat⟩ := (Tree.linkless_of_linkCount hlinks).find_eq (hfound place t hsome)
    rw [start_join_ofPlace, Tree.walk_names fun name hname => (hnames name hname).2] at hq
    exact ⟨hq, hat⟩
  split at hrest
  · next place bytes b =>
    cases hrest
    obtain ⟨hq, -⟩ := hplace _ _ rfl
    exact ⟨rfl, by simpa using ⟨place, hq ▸ hnames, rfl⟩⟩
  · next place es =>
    cases hrest
    obtain ⟨-, hat⟩ := hplace _ _ rfl
    exact ⟨rfl, fun path hpath => isReported_filesIn hnames es (hnamed.at? hat) hpath⟩
  · obtain ⟨errors, hlog⟩ := Act.log_eq .warning ("Path not found: " ++ entry) w₁
    rw [bind_of_ok _ hlog] at hrest
    cases hrest
    exact ⟨rfl, by simp⟩

theorem observes_candidates (base : Place) (excludes : List Text) (entry : Text) :
    Act.Observes (candidates base excludes entry) := by
  rw [candidates]
  refine (Act.looks_lookUp _).observes.bind fun found => ?_
  split
  · exact Act.observes_compositional.pure _
  · exact Act.observes_get.bind fun _ => Act.observes_compositional.pure _
  · exact (Act.observes_log _ _).bind fun _ => Act.observes_compositional.pure _

theorem observes_discover (entries includes excludes : List Text) (base : Path) :
    Act.Observes (discover entries includes excludes base) :=
  (Act.looks_resolve base).observes.bind fun _ =>
    (Act.observes_compositional.mapM (fun _ => observes_candidates _ _ _) _).bind fun _ =>
      Act.observes_compositional.pure _

theorem nodup_filterPaths (found : List Text) :
    (filterPaths (Text.sort found.eraseDups) includes excludes).Nodup :=
  ((List.mergeSort_perm _ _).nodup_iff.mpr (nodup_eraseDups found)).filter _

/-- Every path that is found is reported for some place, and none comes twice. -/
theorem discover_eq_ok (hw : w.IsPlain) {entries : List Text}
    (hentries : ∀ entry ∈ entries, ∀ part ∈ (Path.ofText entry).parts, isUp part = false)
    {paths : List Text} (h : discover entries includes excludes Command.here w = (.ok paths, w')) :
    paths.Nodup ∧ ∀ path ∈ paths, IsReported w.cwd path := by
  rw [discover] at h
  obtain ⟨q, w₁, hq, hrest⟩ := bind_eq_ok h
  obtain ⟨rfl, rfl⟩ := Act.resolve_here hw.inNamed hq
  obtain ⟨found, w₂, hfound, hend⟩ := bind_eq_ok hrest
  cases hend
  have hall : ∀ paths ∈ found, ∀ path ∈ paths, IsReported w₁.cwd path := by
    refine (Act.mapM_induct (I := fun w => w.tree = w₁.tree)
      (fun entry hentry w paths w' htree hstep => ?_) rfl hfound).2
    have hplain : ∀ part ∈ (Path.ofText entry).parts, isUp part = false := by
      split_ifs at hentry
      · obtain rfl := List.mem_singleton.mp hentry
        decide
      · exact hentries entry hentry
    obtain ⟨htree', hpaths⟩ := isReported_candidates (by rw [htree]; exact hw.linkless)
      (by rw [htree]; exact hw.named) hw.inNamed hplain hstep
    exact ⟨htree'.trans htree, hpaths⟩
  constructor
  · exact nodup_filterPaths _
  · intro path hpath
    have hmem : path ∈ found.flatten := by
      rw [filterPaths, List.mem_filter, Text.sort, List.mem_mergeSort, List.mem_eraseDups] at hpath
      exact hpath.1
    obtain ⟨paths, hpaths, hin⟩ := List.mem_flatten.mp hmem
    exact hall paths hpaths path hin

end Entries

end Discovery
end Masthead
