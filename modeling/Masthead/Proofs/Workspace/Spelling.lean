import Masthead.Proofs.Workspace.Walking

/-! The ways to spell an entry. A file has one path, however the entry is spelled that it is found
by. Only a directory that is named by a detour behind the base, in and out of another one, leaves
the detour in the paths of its files. -/

namespace Masthead

namespace Tree
variable {t : Tree} {here names : Place} {name : Text}

theorem collapse_eq_walk (names : List Text) : collapse names = walk [] names := by
  have hfrom (before : List Text) :
      (names.foldl (fun (before : List Text) name => if isUp name then before.tail else name ::
        before) before).reverse =
        walk before.reverse names := by
    induction names generalizing before with
    | nil => rfl
    | cons name names ih =>
      rw [List.foldl_cons, ih, walk_cons, advance]
      split_ifs
      · rw [List.dropLast_reverse]
      · rw [List.reverse_cons]
  exact hfrom []

theorem mem_walk (h : name ∈ walk here names) : name ∈ here ∨ name ∈ names ∧ isUp name = false := by
  induction names generalizing here with
  | nil => exact Or.inl h
  | cons next names ih =>
    rcases ih h with hmem | ⟨hmem, hname⟩
    · rw [advance] at hmem
      split_ifs at hmem with hup
      · exact Or.inl (List.dropLast_subset here hmem)
      · rcases List.mem_append.mp hmem with hmem | hmem
        · exact Or.inl hmem
        · obtain rfl := List.mem_singleton.mp hmem
          exact Or.inr ⟨List.mem_cons_self, Bool.of_not_eq_true hup⟩
    · exact Or.inr ⟨List.mem_cons_of_mem next hmem, hname⟩

theorem isName_of_mem_walk (hhere : ∀ name ∈ here, IsName name)
    (hnames : ∀ name ∈ names, Path.IsPart name) :
    ∀ name ∈ walk here names, IsName name := by
  intro name h
  rcases mem_walk h with hmem | ⟨hmem, hname⟩
  · exact hhere name hmem
  · exact ⟨hnames name hmem, hname⟩

theorem Linkless.realFrom_eq (ht : Linkless t) (links : Nat) (underway : List Place) (here : Place)
    (names : List Text) :
    t.realFrom links underway here names = (walk here names, true) := by
  induction names generalizing here with
  | nil => rw [realFrom]; rfl
  | cons name names ih =>
    rw [realFrom, walk_cons, advance]
    · split_ifs
      · exact ih _
      · exact ih _
    · exact fun target _ hat => absurd hat (ht _ _)

end Tree

namespace Act
variable {p q : Path} {w w' : Workspace}

theorem resolve_eq_ok (hlinkless : w.tree.Linkless) (h : resolve p w = (.ok q, w')) :
    q = ofPlace (Tree.collapse (Tree.walk (start p w) p.parts)) ∧ w' = w := by
  have hplace : realPlace p w = (.ok (Tree.collapse (Tree.walk (start p w) p.parts)), w) := by
    rw [realPlace_eq, Tree.real, hlinkless.realFrom_eq]
  rw [resolve] at h
  split_ifs at h with hnull
  · cases h
  · rw [bind_of_ok _ hplace] at h
    obtain ⟨r, w₁, hfind, hend⟩ := bind_eq_ok h
    obtain rfl : w₁ = w := by
      rw [find_eq] at hfind
      split_ifs at hfind <;> cases hfind <;> rfl
    split at hend
    · cases hend
    · cases hend
      exact ⟨rfl, rfl⟩

end Act

namespace Discovery
open Masthead.Tree (Place IsName IsNamed IsNamedIn isUp walk)
variable {base names more : Place}

def leads (base : Place) (path : Text) : Place := walk base (Path.ofText path).parts

/-- Names that go into the base, and out of some directory after that. -/
def IsDetour (base names : Place) : Prop :=
  ∃ more, names = base ++ more ∧ ∃ name ∈ more, isUp name = true

theorem way_append (base more : Place) : way base (base ++ more) = more := by
  induction base with
  | nil => simp [way]
  | cons b base ih => rw [List.cons_append, way, if_pos rfl, ih]

theorem reported_outside (h : ¬ base <+: names) :
    reported base names = Path.text ⟨[], way base (walk [] names)⟩ := by
  rw [reported, if_neg (by rwa [List.isPrefixOf_iff_prefix]), Tree.collapse_eq_walk]

theorem leads_reported (hbase : ∀ name ∈ base, IsName name)
    (hnames : ∀ name ∈ names, Path.IsPart name) :
    leads base (reported base names) = walk [] names := by
  by_cases hprefix : base <+: names
  · obtain ⟨more, rfl⟩ := hprefix
    have hmore : ∀ name ∈ more, Path.IsPart name :=
      fun name h => hnames name (List.mem_append_right base h)
    rw [reported_append, leads, Path.ofText_text hmore, Tree.walk_append,
      Tree.walk_names fun name h => (hbase name h).2, List.nil_append]
  · have hwalked : ∀ name ∈ walk [] names, IsName name := Tree.isName_of_mem_walk (by simp) hnames
    have hway : ∀ name ∈ way base (walk [] names), Path.IsPart name := by
      intro name h
      rcases mem_way h with rfl | hmem
      · decide
      · exact (hwalked name hmem).1
    have hback : walk ([] ++ base) (way base (walk [] names)) = [] ++ walk [] names :=
      Tree.walk_way (fun name h => (hwalked name h).2) []
    rw [reported_outside hprefix, leads, Path.ofText_text hway]
    exact hback

theorem reported_walk (hbase : ∀ name ∈ base, IsName name)
    (hnames : ∀ name ∈ names, Path.IsPart name) (h : ¬ IsDetour base names) :
    reported base (walk [] names) = reported base names := by
  by_cases hprefix : base <+: names
  · obtain ⟨more, rfl⟩ := hprefix
    have hmore : ∀ name ∈ more, isUp name = false := by
      intro name hname
      by_contra hup
      exact h ⟨more, rfl, name, hname, Bool.of_not_eq_false hup⟩
    rw [Tree.walk_names fun name hname => (List.mem_append.mp hname).elim
      (fun hb => (hbase name hb).2) (hmore name), List.nil_append]
  · have hwalked : ∀ name ∈ walk [] names, isUp name = false :=
      fun name hname => (Tree.isName_of_mem_walk (by simp) hnames name hname).2
    rw [reported_outside hprefix]
    by_cases hplace : base <+: walk [] names
    · obtain ⟨more, hmore⟩ := hplace
      rw [← hmore, way_append, reported_append]
    · rw [reported_outside hplace, Tree.walk_names hwalked, List.nil_append]

theorem not_isDetour (h : ∀ name ∈ names, isUp name = false) : ¬ IsDetour base names := by
  rintro ⟨more, rfl, name, hname, hup⟩
  rw [h name (List.mem_append_right base hname)] at hup
  cases hup

theorem IsDetour.of_append (hmore : ∀ name ∈ more, isUp name = false)
    (h : IsDetour base (names ++ more)) :
    IsDetour base names := by
  obtain ⟨rest, heq, name, hname, hup⟩ := h
  have hfar : name ∉ more := fun hmem => by
    rw [hmore name hmem] at hup
    cases hup
  rcases List.append_eq_append_iff.mp heq with ⟨front, rfl, rfl⟩ | ⟨front, rfl, rfl⟩
  · exact absurd (List.mem_append_right front hname) hfar
  · exact ⟨front, rfl, name, (List.mem_append.mp hname).resolve_right hfar, hup⟩

/-! What an entry adds -/

section Entries
variable {w w' : Workspace} {includes excludes paths entries : List Text} {entry path : Text}
  {directory : Path}

def named (base : Place) (entry : Text) : List Text :=
  ((Act.ofPlace base).join (Path.ofText entry)).parts

def IsRoundabout (w : Workspace) (base : Place) (entry : Text) : Prop :=
  IsDetour base (named base entry) ∧ ∃ es, w.tree.at? (walk [] (named base entry)) = some (.dir es)

theorem isPart_of_mem_named (hbase : ∀ name ∈ base, IsName name) :
    ∀ part ∈ named base entry, Path.IsPart part := by
  intro part hpart
  rw [named, Path.join] at hpart
  split_ifs at hpart
  · exact Path.isPart_of_mem_ofText hpart
  · exact (List.mem_append.mp hpart).elim (fun h => (hbase part h).1) Path.isPart_of_mem_ofText

theorem of_mem_candidates (hlinks : w.tree.linkCount = 0) (hnamed : w.tree.IsNamed)
    (hbase : ∀ name ∈ base, IsName name) (h : candidates base excludes entry w = (.ok paths, w')) :
    w'.tree = w.tree ∧ ∀ path ∈ paths, ∃ names, path = reported base names ∧
    (∀ name ∈ names, Path.IsPart name) ∧
      (IsDetour base names → IsRoundabout w base entry ∧ named base entry <+: names) := by
  have hlinkless := Tree.linkless_of_linkCount hlinks
  rw [candidates] at h
  obtain ⟨found, w₁, hlook, hrest⟩ := bind_eq_ok h
  obtain ⟨rfl, hfound⟩ := Act.lookUp_eq_ok hlook
  have hplace : ∀ place t, found = some (place, t) →
      place = walk [] (named base entry) ∧ w₁.tree.at? place = some t := by
    intro place t hsome
    have hfind := hfound place t hsome
    rw [start_join_ofPlace] at hfind
    exact hlinkless.find_eq hfind
  split at hrest
  · next place bytes b =>
    cases hrest
    obtain ⟨-, hat⟩ := hplace _ _ rfl
    have hnames := hnamed.isName hat
    refine ⟨rfl, fun path hpath => ⟨place, List.mem_singleton.mp hpath, fun name hname =>
      (hnames name hname).1, ?_⟩⟩
    exact fun hdetour => absurd hdetour (not_isDetour fun name hname => (hnames name hname).2)
  · next place es =>
    cases hrest
    obtain ⟨rfl, hat⟩ := hplace _ _ rfl
    refine ⟨rfl, fun path hpath => ?_⟩
    obtain ⟨name, more, rfl, hmore, -⟩ :=
      of_mem_filesIn es (Tree.linkCount_at? hlinks hat) (hnamed.at? hat) hpath
    refine ⟨named base entry ++ name :: more, rfl, fun part hpart => ?_, fun hdetour =>
      ⟨⟨?_, es, hat⟩, ?_⟩⟩
    · exact (List.mem_append.mp hpart).elim (isPart_of_mem_named hbase part) fun hmem =>
        (hmore part hmem).1
    · exact hdetour.of_append fun part hpart => (hmore part hpart).2
    · exact List.prefix_append _ _
  · obtain ⟨errors, hlog⟩ := Act.log_eq .warning ("Path not found: " ++ entry) w₁
    rw [bind_of_ok _ hlog] at hrest
    cases hrest
    exact ⟨rfl, by simp⟩

def origin (directory : Path) (w : Workspace) : Place :=
  walk (Act.start directory w) directory.parts

theorem isName_of_mem_origin (hw : w.IsPlain)
    (hdirectory : ∀ part ∈ directory.parts, Path.IsPart part) :
    ∀ name ∈ origin directory w, IsName name := by
  refine Tree.isName_of_mem_walk (fun name hname => ?_) hdirectory
  rw [Act.start] at hname
  split_ifs at hname
  · cases hname
  · exact hw.inNamed name hname

theorem not_isRoundabout_here (hbase : ∀ name ∈ base, IsName name) :
    ¬ IsRoundabout w base ['.'] := by
  rintro ⟨hdetour, -⟩
  have hnamed : named base ['.'] = base := List.append_nil base
  rw [hnamed] at hdetour
  exact not_isDetour (fun name hname => (hbase name hname).2) hdetour

/-- However entries are spelled, each file that is found has the one path that its place is reported
under, but for those below a directory that is named by a detour. So no file is found twice unless
such an entry is given. -/
theorem discover_spelled (hw : w.IsPlain) (hdirectory : ∀ part ∈ directory.parts, Path.IsPart part)
    (h : discover entries includes excludes directory w = (.ok paths, w')) :
    (∀ path ∈ paths, path = reported (origin directory w) (leads (origin directory w) path) ∨
        ∃ entry ∈ entries, IsRoundabout w (origin directory w) entry ∧
          ∃ names, named (origin directory w) entry <+: names ∧
          path = reported (origin directory w) names) ∧
      paths.Nodup ∧
      ((∀ entry ∈ entries, ¬ IsRoundabout w (origin directory w) entry) →
        (paths.map (leads (origin directory w))).Nodup) := by
  have hbase := isName_of_mem_origin hw hdirectory
  generalize hb : origin directory w = base at hbase ⊢
  rw [discover] at h
  obtain ⟨q, w₁, hq, hrest⟩ := bind_eq_ok h
  obtain ⟨rfl, rfl⟩ := Act.resolve_eq_ok (Tree.linkless_of_linkCount hw.linkless) hq
  have hparts :
      (Act.ofPlace (Tree.collapse (walk (Act.start directory w₁) directory.parts))).parts =
      base := by
    rw [← origin, hb]
    exact collapse_names fun name hname => (hbase name hname).2
  rw [hparts] at hrest
  obtain ⟨found, w₂, hfound, hend⟩ := bind_eq_ok hrest
  cases hend
  have hall : ∀ l ∈ found, ∀ path ∈ l, path = reported base (leads base path) ∨
      ∃ entry ∈ entries, IsRoundabout w₁ base entry ∧ ∃ names, named base entry <+: names ∧
      path = reported base names := by
    refine (Act.mapM_induct (I := fun w => w.tree = w₁.tree) (fun entry hentry w l w' htree hstep =>
      ?_) rfl hfound).2
    obtain ⟨htree', hpaths⟩ :=
      of_mem_candidates (by rw [htree]; exact hw.linkless) (by rw [htree]; exact hw.named)
        hbase hstep
    refine ⟨htree'.trans htree, fun path hpath => ?_⟩
    obtain ⟨names, rfl, hnames, hdetour⟩ := hpaths path hpath
    by_cases hround : IsDetour base names
    · obtain ⟨hentry', hprefix⟩ := hdetour hround
      rw [IsRoundabout, htree] at hentry'
      refine Or.inr ⟨entry, ?_, hentry', names, hprefix, rfl⟩
      split_ifs at hentry
      · obtain rfl := List.mem_singleton.mp hentry
        exact absurd hentry' (not_isRoundabout_here hbase)
      · exact hentry
    · exact Or.inl (by rw [leads_reported hbase hnames, reported_walk hbase hnames hround])
  have hkept : ∀ path ∈ filterPaths (Text.sort found.flatten.eraseDups) includes excludes,
      ∃ l ∈ found, path ∈ l := fun path hpath => List.mem_flatten.mp (mem_selected.mp hpath).1
  refine ⟨fun path hpath => ?_, nodup_filterPaths _, fun hstraight => ?_⟩
  · obtain ⟨l, hl, hmem⟩ := hkept path hpath
    exact hall l hl path hmem
  · -- paths that are made from the place they lead to differ if and only if the places do
    refine List.Nodup.map_on (fun path hpath path' hpath' hsame => ?_) (nodup_filterPaths _)
    have hmade : ∀ path ∈ filterPaths (Text.sort found.flatten.eraseDups) includes excludes,
        path = reported base (leads base path) := by
      intro path hpath
      obtain ⟨l, hl, hmem⟩ := hkept path hpath
      refine (hall l hl path hmem).resolve_right ?_
      rintro ⟨entry, hentry, hround, -⟩
      exact hstraight entry hentry hround
    rw [hmade path hpath, hsame, ← hmade path' hpath']

end Entries

section Examples

def beside : Workspace where
  tree := .dir [("x.ts".toList, .file [] false),
    ("sub".toList, .dir [("y.ts".toList, .file [] false)])]
  cwd := []
  year := 2025
  git := fun _ _ => .unavailable

theorem discover_spelled_beside :
    beside.IsPlain ∧
      discover [".".toList, "sub/../x.ts".toList] ["**/*.ts".toList] [] ⟨[], []⟩ beside =
        (.ok ["sub/y.ts".toList, "x.ts".toList], beside) ∧
      (["sub/y.ts".toList, "x.ts".toList].map (leads (origin ⟨[], []⟩ beside))).Nodup := by
  have hplain : beside.IsPlain :=
    ⟨rfl, ⟨by decide, trivial, by decide, ⟨by decide, trivial, trivial⟩, trivial⟩, by simp [beside]⟩
  have hfound : discover [".".toList, "sub/../x.ts".toList] ["**/*.ts".toList] [] ⟨[], []⟩ beside =
      (.ok ["sub/y.ts".toList, "x.ts".toList], beside) := by cbv
  obtain ⟨-, -, hnodup⟩ := discover_spelled hplain (by simp) hfound
  refine ⟨hplain, hfound, hnodup ?_⟩
  have hfile : beside.tree.at? (walk [] (named (origin ⟨[], []⟩ beside) "sub/../x.ts".toList)) =
      some (.file [] false) := by rfl
  simp only [List.forall_mem_cons]
  refine ⟨not_isRoundabout_here (by simp [origin, Act.start, beside, walk]), ?_, by simp⟩
  rintro ⟨-, es, hdir⟩
  rw [hfile] at hdir
  cases hdir

/-- A directory that is named by a detour adds its files a second time. -/
theorem discover_repeats :
    beside.tree.linkCount = 0 ∧
      (discover [".".toList, "sub/..".toList] ["**/*.ts".toList] [] ⟨[], []⟩ beside).1 =
        .ok ["sub/../sub/y.ts".toList, "sub/../x.ts".toList, "sub/y.ts".toList, "x.ts".toList] ∧
      leads [] "sub/../x.ts".toList = leads [] "x.ts".toList := by
  exact ⟨rfl, by cbv, by rfl⟩

end Examples

end Discovery
end Masthead
