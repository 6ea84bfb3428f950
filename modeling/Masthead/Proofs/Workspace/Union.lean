import Masthead.Proofs.Chain
import Masthead.Proofs.Text.Order
import Masthead.Proofs.Workspace.Looking
import Masthead.Proofs.Workspace.Spelling

/-! Finding files as an operation on sets. Each entry stands for a set of paths that hangs on the
files alone; what is found is the union of these sets, as far as the patterns let it through, in
order. -/

namespace Masthead

namespace Act
variable {α β : Type}

theorem mapM_fst {x : α → Act β} (hkeep : ∀ a w, (x a w).2.tree = w.tree)
    (hsame : ∀ a w v, v.tree = w.tree → (x a v).1 = (x a w).1) (l : List α) (w : Workspace) :
    (l.mapM x w).1 = l.mapM fun a => (x a w).1 := by
  have hfrom (l : List α) : ∀ v : Workspace, v.tree = w.tree →
      (l.mapM x v).1 = l.mapM fun a => (x a w).1 := by
    induction l with
    | nil => exact fun v _ => rfl
    | cons a l ih =>
      intro v hv
      have hkept := hkeep a v
      rw [List.mapM_cons (f := fun a => (x a w).1), ← hsame a w v hv]
      rcases hx : x a v with ⟨e | b, v'⟩
      · rw [mapM_cons_of_error l hx]
        rfl
      · rw [hx] at hkept
        rw [mapM_cons_of_ok l hx, ih v' (hkept.trans hv)]
        cases (l.mapM fun a => (x a w).1) <;> rfl
  exact hfrom l w rfl

end Act

namespace Discovery
open Masthead.Tree (Place)
variable {w : Workspace} {base here names : Place} {includes excludes : List Text}
  {entry path : Text} {top : Tree}

/-! What an entry stands for -/

def below (top : Tree) (base : Place) (excludes : List Text) (names : Place) :
    Option (Place × Tree) → List Text
  | some (place, .file ..) => [reported base place]
  | some (place, .dir es) => filesIn top base excludes place names es
  | _ => []

theorem candidates_fst (base : Place) (excludes : List Text) (entry : Text) (w : Workspace) :
    (candidates base excludes entry w).1 =
      (Act.seen ((Act.ofPlace base).join (Path.ofText entry)) w).map
        (below w.tree base excludes (named base entry)) := by
  rw [candidates, bind_apply, Act.lookUp_eq]
  rcases Act.seen ((Act.ofPlace base).join (Path.ofText entry)) w
    with e | _ | ⟨place, bytes | es | target⟩
  · rfl
  · obtain ⟨errors, hlog⟩ := Act.log_eq .warning ("Path not found: " ++ entry) w
    exact congrArg Prod.fst (bind_of_ok _ hlog)
  · rfl
  · rfl
  · obtain ⟨errors, hlog⟩ := Act.log_eq .warning ("Path not found: " ++ entry) w
    exact congrArg Prod.fst (bind_of_ok _ hlog)

def IsUsable (w : Workspace) (base : Place) (entry : Text) : Prop :=
  ∃ found, Act.seen ((Act.ofPlace base).join (Path.ofText entry)) w = .ok found

def Covers (w : Workspace) (base : Place) (excludes : List Text) (entry path : Text) : Prop :=
  ∃ paths, (candidates base excludes entry w).1 = .ok paths ∧ path ∈ paths

theorem exists_candidates_iff :
    (∃ paths, (candidates base excludes entry w).1 = .ok paths) ↔ IsUsable w base entry := by
  rw [candidates_fst, IsUsable]
  cases Act.seen ((Act.ofPlace base).join (Path.ofText entry)) w with
  | error e => exact iff_of_false (by rintro ⟨_, h⟩; cases h) (by rintro ⟨_, h⟩; cases h)
  | ok found => exact iff_of_true ⟨_, rfl⟩ ⟨_, rfl⟩

theorem candidates_fst_congr {v : Workspace} (htree : v.tree = w.tree) :
    (candidates base excludes entry v).1 = (candidates base excludes entry w).1 := by
  rw [candidates_fst, candidates_fst, Act.seen, Act.seen, start_join_ofPlace,
    start_join_ofPlace, htree]

/-! More exclusions prune more directories. -/

section Exclusions
variable {excludes' : List Text}

theorem matchesAnyGlob_mono (h : excludes ⊆ excludes')
    (hmatch : matchesAnyGlob path excludes = true) :
    matchesAnyGlob path excludes' = true := by
  rw [matchesAnyGlob, List.any_eq_true] at hmatch ⊢
  obtain ⟨pattern, hpattern, hmatches⟩ := hmatch
  exact ⟨pattern, h hpattern, hmatches⟩

theorem matchesAnyGlob_anti (h : excludes ⊆ excludes')
    (hmatch : matchesAnyGlob path excludes' = false) :
    matchesAnyGlob path excludes = false := by
  rw [← Bool.not_eq_true] at hmatch ⊢
  exact fun hfew => hmatch (matchesAnyGlob_mono h hfew)

theorem isPruned_mono (h : excludes ⊆ excludes') (hpruned : isPruned base excludes names = true) :
    isPruned base excludes' names = true := by
  rw [isPruned, Bool.or_eq_true] at hpruned ⊢
  exact hpruned.imp_right (matchesAnyGlob_mono h)

mutual

theorem filesAt_anti (h : excludes ⊆ excludes') {here names : Place} :
    ∀ t : Tree, path ∈ filesAt top base excludes' here names t →
    path ∈ filesAt top base excludes here names t
  | .file .., hmem => by rwa [filesAt] at hmem ⊢
  | .dir es, hmem => by
    rw [filesAt] at hmem ⊢
    split_ifs at hmem with hmore
    · cases hmem
    · rw [if_neg fun hfew => hmore (isPruned_mono h hfew)]
      exact filesIn_anti h es hmem
  | .link _, hmem => by rwa [filesAt] at hmem ⊢

theorem filesIn_anti (h : excludes ⊆ excludes') {here names : Place} :
    ∀ es : List (Text × Tree), path ∈ filesIn top base excludes' here names es →
      path ∈ filesIn top base excludes here names es
  | [], hmem => by rwa [filesIn] at hmem ⊢
  | (name, t) :: es, hmem => by
    rw [filesIn, List.mem_append] at hmem ⊢
    exact hmem.imp (filesAt_anti h t) (filesIn_anti h es)

end

theorem Covers.anti (h : excludes ⊆ excludes') (hcovers : Covers w base excludes' entry path) :
    Covers w base excludes entry path := by
  obtain ⟨paths, hpaths, hmem⟩ := hcovers
  rw [candidates_fst] at hpaths
  rw [Covers, candidates_fst]
  cases hseen : Act.seen ((Act.ofPlace base).join (Path.ofText entry)) w with
  | error e =>
    rw [hseen] at hpaths
    cases hpaths
  | ok found =>
    rw [hseen] at hpaths
    cases hpaths
    refine ⟨_, rfl, ?_⟩
    rcases found with _ | ⟨place, bytes | es | target⟩
    · exact hmem
    · exact hmem
    · exact filesIn_anti h es hmem
    · exact hmem

end Exclusions

/-! What is found -/

section Found
variable {entries xs ys : List Text} {directory q : Path} {paths : List Text}

def given (entries : List Text) : List Text := if entries.isEmpty then [['.']] else entries

theorem given_of_ne_nil (h : entries ≠ []) : given entries = entries := if_neg (by simpa using h)

theorem mem_given_congr (h : ∀ entry, entry ∈ xs ↔ entry ∈ ys) :
    ∀ entry, entry ∈ given xs ↔ entry ∈ given ys := by
  have hempty : xs.isEmpty = ys.isEmpty := by
    rw [Bool.eq_iff_iff, List.isEmpty_iff, List.isEmpty_iff, List.eq_nil_iff_forall_not_mem,
      List.eq_nil_iff_forall_not_mem]
    simp only [h]
  intro entry
  rw [given, given, hempty]
  split_ifs
  · rfl
  · exact h entry

/-- The path is one that an entry stands for and that the patterns let through. -/
def IsSelected (w : Workspace) (base : Place) (entries includes excludes : List Text)
    (path : Text) : Prop :=
  (∃ entry ∈ given entries, Covers w base excludes entry path) ∧
    matchesAnyGlob path excludes = false ∧ matchesAnyGlob path includes = true

theorem discover_fst (entries includes excludes : List Text) (directory : Path) (w : Workspace) :
    (discover entries includes excludes directory w).1 =
      (Act.resolve directory w).1.bind fun q =>
        ((given entries).mapM fun entry => (candidates q.parts excludes entry w).1).map fun found =>
          filterPaths (Text.sort found.flatten.eraseDups) includes excludes := by
  have hall (base : Place) : ((given entries).mapM (candidates base excludes) w).1 =
      (given entries).mapM fun entry => (candidates base excludes entry w).1 :=
    Act.mapM_fst (fun entry v => (observes_candidates base excludes entry v).1)
      (fun entry v u htree => candidates_fst_congr htree) _ _
  rw [discover, (Act.looks_resolve directory).bind_fst]
  congr 1
  funext q
  rw [← hall q.parts, ← given, bind_apply]
  rcases (given entries).mapM (candidates q.parts excludes) w with ⟨e | found, w'⟩ <;> rfl

theorem exists_discover (hq : (Act.resolve directory w).1 = .ok q)
    (husable : ∀ entry ∈ given entries, IsUsable w q.parts entry) (includes excludes : List Text) :
    ∃ paths, (discover entries includes excludes directory w).1 = .ok paths := by
  have hall : ∀ entry ∈ given entries, ∃ paths, (candidates q.parts excludes entry w).1 =
      .ok paths :=
    fun entry hentry => exists_candidates_iff.mpr (husable entry hentry)
  obtain ⟨found, hfound⟩ := exists_mapM_eq_ok.mpr hall
  rw [discover_fst, hq]
  exact ⟨_, by rw [Except.bind, hfound]; rfl⟩

/-- What is found are the selected paths, in order. -/
theorem discover_fst_eq_ok_iff :
    (discover entries includes excludes directory w).1 = .ok paths ↔
      ∃ q, (Act.resolve directory w).1 = .ok q ∧
      (∀ entry ∈ given entries, IsUsable w q.parts entry) ∧
        paths.Pairwise (· < ·) ∧
        ∀ path, path ∈ paths ↔ IsSelected w q.parts entries includes excludes path := by
  have hsound {paths : List Text} (h : (discover entries includes excludes directory w).1 =
      .ok paths) :
      ∃ q, (Act.resolve directory w).1 = .ok q ∧
      (∀ entry ∈ given entries, IsUsable w q.parts entry) ∧
        paths.Pairwise (· < ·) ∧
        ∀ path, path ∈ paths ↔ IsSelected w q.parts entries includes excludes path := by
    rw [discover_fst] at h
    obtain ⟨q, hq, h⟩ := exists_of_bind_eq_ok h
    obtain ⟨found, hfound, rfl⟩ := exists_of_map_eq_ok h
    refine ⟨q, hq, fun entry hentry => ?_, ?_, fun path => ?_⟩
    · exact exists_candidates_iff.mp (exists_mapM_eq_ok.mp ⟨found, hfound⟩ entry hentry)
    · exact (Text.pairwise_sort_of_nodup (nodup_eraseDups _)).filter _
    · rw [mem_selected, mem_flatten_of_mapM hfound]
      rfl
  refine ⟨hsound, ?_⟩
  rintro ⟨q, hq, husable, hincreasing, hmem⟩
  -- a list in order is determined by what is on it, so the one that is found can be no other
  obtain ⟨paths', hpaths'⟩ := exists_discover hq husable includes excludes
  obtain ⟨q', hq', -, hincreasing', hmem'⟩ := hsound hpaths'
  obtain rfl : q = q' := Except.ok.inj (hq.symm.trans hq')
  rw [hpaths', Text.eq_of_increasing hincreasing hincreasing' fun path =>
    (hmem path).trans (hmem' path).symm]

theorem exists_found (hq : (Act.resolve directory w).1 = .ok q)
    (husable : ∀ entry ∈ given entries, IsUsable w q.parts entry) (includes excludes : List Text) :
    ∃ paths, (discover entries includes excludes directory w).1 = .ok paths ∧
      ∀ path, path ∈ paths ↔ IsSelected w q.parts entries includes excludes path := by
  obtain ⟨paths, hpaths⟩ := exists_discover hq husable includes excludes
  obtain ⟨q', hq', -, -, hmem⟩ := discover_fst_eq_ok_iff.mp hpaths
  obtain rfl : q = q' := Except.ok.inj (hq.symm.trans hq')
  exact ⟨paths, hpaths, hmem⟩

theorem isSelected_append (hx : xs ≠ []) (hy : ys ≠ []) {path : Text} :
    IsSelected w base (xs ++ ys) includes excludes path ↔
      IsSelected w base xs includes excludes path ∨
      IsSelected w base ys includes excludes path := by
  have hall : xs ++ ys ≠ [] := List.append_ne_nil_of_left_ne_nil hx ys
  simp only [IsSelected, given_of_ne_nil hx, given_of_ne_nil hy, given_of_ne_nil hall,
    List.mem_append, or_and_right, exists_or]

theorem IsSelected.anti {excludes' : List Text} {path : Text} (h : excludes ⊆ excludes')
    (hselected : IsSelected w base entries includes excludes' path) :
    IsSelected w base entries includes excludes path := by
  obtain ⟨⟨entry, hentry, hcovers⟩, hexcluded, hincluded⟩ := hselected
  exact ⟨⟨entry, hentry, hcovers.anti h⟩, matchesAnyGlob_anti h hexcluded, hincluded⟩

theorem IsSelected.mono {includes' : List Text} {path : Text} (h : includes ⊆ includes')
    (hselected : IsSelected w base entries includes excludes path) :
    IsSelected w base entries includes' excludes path :=
  ⟨hselected.1, hselected.2.1, matchesAnyGlob_mono h hselected.2.2⟩

theorem discover_append (hx : xs ≠ []) (hy : ys ≠ []) :
    (discover (xs ++ ys) includes excludes directory w).1 = .ok paths ↔
      ∃ left right, (discover xs includes excludes directory w).1 = .ok left ∧
        (discover ys includes excludes directory w).1 = .ok right ∧ paths.Pairwise (· < ·) ∧
        ∀ path, path ∈ paths ↔ path ∈ left ∨ path ∈ right := by
  have hall : given (xs ++ ys) = given xs ++ given ys := by
    rw [given_of_ne_nil hx, given_of_ne_nil hy,
      given_of_ne_nil (List.append_ne_nil_of_left_ne_nil hx ys)]
  rw [discover_fst_eq_ok_iff, hall]
  constructor
  · rintro ⟨q, hq, husable, hincreasing, hmem⟩
    rw [List.forall_mem_append] at husable
    obtain ⟨left, hleft, hmem₁⟩ := exists_found hq husable.1 includes excludes
    obtain ⟨right, hright, hmem₂⟩ := exists_found hq husable.2 includes excludes
    refine ⟨left, right, hleft, hright, hincreasing, fun path => ?_⟩
    rw [hmem, isSelected_append hx hy, hmem₁, hmem₂]
  · rintro ⟨left, right, hleft, hright, hincreasing, hmem⟩
    obtain ⟨q, hq, husable₁, -, hmem₁⟩ := discover_fst_eq_ok_iff.mp hleft
    obtain ⟨q₂, hq₂, husable₂, -, hmem₂⟩ := discover_fst_eq_ok_iff.mp hright
    obtain rfl : q = q₂ := Except.ok.inj (hq.symm.trans hq₂)
    refine ⟨q, hq, List.forall_mem_append.mpr ⟨husable₁, husable₂⟩, hincreasing, fun path => ?_⟩
    rw [hmem, isSelected_append hx hy, hmem₁, hmem₂]

theorem discover_congr (h : ∀ entry, entry ∈ xs ↔ entry ∈ ys) :
    (discover xs includes excludes directory w).1 = .ok paths ↔
      (discover ys includes excludes directory w).1 = .ok paths := by
  simp only [discover_fst_eq_ok_iff, IsSelected, mem_given_congr h]

theorem matchesAnyGlob_discover
    (h : (discover xs includes excludes directory w).1 = .ok paths) {path : Text}
    (hpath : path ∈ paths) :
    matchesAnyGlob path includes = true ∧ matchesAnyGlob path excludes = false := by
  obtain ⟨q, -, -, -, hmem⟩ := discover_fst_eq_ok_iff.mp h
  obtain ⟨-, hexcluded, hincluded⟩ := (hmem path).mp hpath
  exact ⟨hincluded, hexcluded⟩

theorem filterPaths_discover (h : (discover xs includes excludes directory w).1 = .ok paths) :
    filterPaths paths includes excludes = paths := by
  rw [filterPaths, List.filter_eq_self]
  intro path hpath
  obtain ⟨hincluded, hexcluded⟩ := matchesAnyGlob_discover h hpath
  rw [hexcluded, hincluded]
  rfl

theorem discover_anti {excludes' : List Text} (hmore : excludes ⊆ excludes')
    (h : (discover xs includes excludes directory w).1 = .ok paths) :
    ∃ fewer, (discover xs includes excludes' directory w).1 = .ok fewer ∧ fewer ⊆ paths := by
  obtain ⟨q, hq, husable, -, hmem⟩ := discover_fst_eq_ok_iff.mp h
  obtain ⟨fewer, hfewer, hmem'⟩ := exists_found hq husable includes excludes'
  exact ⟨fewer, hfewer, fun path hpath => (hmem path).mpr (((hmem' path).mp hpath).anti hmore)⟩

theorem discover_mono {includes' : List Text} (hmore : includes ⊆ includes')
    (h : (discover xs includes excludes directory w).1 = .ok paths) :
    ∃ more, (discover xs includes' excludes directory w).1 = .ok more ∧ paths ⊆ more := by
  obtain ⟨q, hq, husable, -, hmem⟩ := discover_fst_eq_ok_iff.mp h
  obtain ⟨more, hfound, hmem'⟩ := exists_found hq husable includes' excludes
  exact ⟨more, hfound, fun path hpath => (hmem' path).mpr (((hmem path).mp hpath).mono hmore)⟩

/-- Entries are put together by putting together what is found for them, whatever their order is and
however often they are repeated. All that is found passes the patterns; further exclusions take
paths away at most, and further inclusions add some at most. -/
theorem discover_union (w : Workspace) (directory : Path) (includes excludes xs : List Text) :
    (∀ ys, xs ≠ [] → ys ≠ [] → ∀ paths,
      (discover (xs ++ ys) includes excludes directory w).1 = .ok paths ↔
        ∃ left right, (discover xs includes excludes directory w).1 = .ok left ∧
          (discover ys includes excludes directory w).1 = .ok right ∧ paths.Pairwise (· < ·) ∧
          ∀ path, path ∈ paths ↔ path ∈ left ∨ path ∈ right) ∧
    (∀ ys, (∀ entry, entry ∈ xs ↔ entry ∈ ys) → ∀ paths,
      (discover xs includes excludes directory w).1 = .ok paths ↔
        (discover ys includes excludes directory w).1 = .ok paths) ∧
    ∀ paths, (discover xs includes excludes directory w).1 = .ok paths →
      paths.Pairwise (· < ·) ∧ filterPaths paths includes excludes = paths ∧
      (∀ path ∈ paths, matchesAnyGlob path includes = true ∧ matchesAnyGlob path excludes = false) ∧
      (∀ excludes', excludes ⊆ excludes' →
        ∃ fewer, (discover xs includes excludes' directory w).1 = .ok fewer ∧ fewer ⊆ paths) ∧
      ∀ includes', includes ⊆ includes' →
        ∃ more, (discover xs includes' excludes directory w).1 = .ok more ∧ paths ⊆ more := by
  refine ⟨fun ys hx hy paths => discover_append hx hy, fun ys hsame paths => discover_congr hsame,
    fun paths h => ?_⟩
  obtain ⟨-, -, -, hincreasing, -⟩ := discover_fst_eq_ok_iff.mp h
  exact ⟨hincreasing, filterPaths_discover h, fun _ => matchesAnyGlob_discover h, fun _ hmore =>
    discover_anti hmore h, fun _ hmore => discover_mono hmore h⟩

theorem discover_union_beside :
    (discover ["x.ts".toList, "sub/y.ts".toList] ["**/*.ts".toList] [] ⟨[], []⟩ beside).1 =
        .ok ["sub/y.ts".toList, "x.ts".toList] ∧
      (discover ["sub".toList] ["**/*.ts".toList] [] ⟨[], []⟩ beside).1 = .ok ["sub/y.ts".toList] ∧
      (discover ["x.ts".toList, "sub/y.ts".toList, "sub".toList] ["**/*.ts".toList] [] ⟨[], []⟩
        beside).1 =
        .ok ["sub/y.ts".toList, "x.ts".toList] ∧
      ∃ fewer, (discover ["sub".toList] ["**/*.ts".toList] ["sub/**".toList] ⟨[], []⟩ beside).1 =
        .ok fewer ∧
        fewer ⊆ ["sub/y.ts".toList] := by
  have hfiles : (discover ["x.ts".toList, "sub/y.ts".toList] ["**/*.ts".toList] [] ⟨[], []⟩
      beside).1 =
      .ok ["sub/y.ts".toList, "x.ts".toList] := by cbv
  have hsub : (discover ["sub".toList] ["**/*.ts".toList] [] ⟨[], []⟩ beside).1 =
      .ok ["sub/y.ts".toList] := by cbv
  obtain ⟨hunion, -, -⟩ :=
    discover_union beside ⟨[], []⟩ ["**/*.ts".toList] [] ["x.ts".toList, "sub/y.ts".toList]
  obtain ⟨-, -, hfound⟩ := discover_union beside ⟨[], []⟩ ["**/*.ts".toList] [] ["sub".toList]
  obtain ⟨-, -, -, hfewer, -⟩ := hfound _ hsub
  refine ⟨hfiles, hsub, (hunion ["sub".toList] (by simp) (by simp) _).mpr ?_, hfewer _ (by simp)⟩
  refine ⟨_, _, hfiles, hsub, by decide, fun path => ?_⟩
  simp only [List.mem_cons, List.not_mem_nil, or_false]
  tauto

end Found

end Discovery
end Masthead
