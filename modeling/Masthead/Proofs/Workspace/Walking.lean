import Masthead.Proofs.Glob.Subtree
import Masthead.Proofs.Workspace.Discovery
import Mathlib

/-! Walking through directories. A walk lists the files below a directory but for those in a
directory that is pruned on the way. A file that is named on its own is only compared with the
patterns. -/

namespace Masthead

namespace Tree
variable {t u : Tree} {place : Place}

theorem IsNamedIn.name {es : List (Text × Tree)} (h : IsNamedIn es) {e : Text × Tree}
    (he : e ∈ es) : IsName e.1 := by
  induction es with
  | nil => cases he
  | cons f es ih =>
    obtain ⟨hf, -, hes⟩ := h
    rcases List.mem_cons.mp he with rfl | he
    · exact hf
    · exact ih hes he

theorem mem_of_child? {name : Text} (h : t.child? name = some u) :
    ∃ es, t = .dir es ∧ (name, u) ∈ es := by
  obtain ⟨es, rfl⟩ := exists_dir_of_child? h
  obtain ⟨⟨n, v⟩, he, rfl⟩ := Option.map_eq_some_iff.mp h
  obtain rfl : n = name := by simpa using List.find?_some he
  exact ⟨es, rfl, List.mem_of_find?_eq_some he⟩

theorem IsNamed.isName (h : t.IsNamed) (hat : t.at? place = some u) :
    ∀ name ∈ place, IsName name := by
  induction place generalizing t with
  | nil => simp
  | cons name place ih =>
    obtain ⟨c, hc, hu⟩ := at?_cons_eq_some hat
    obtain ⟨es, rfl, hmem⟩ := mem_of_child? hc
    exact List.forall_mem_cons.mpr ⟨IsNamedIn.name h hmem, ih (IsNamedIn.mem h hmem) hu⟩

theorem at?_append (t : Tree) (place more : Place) :
    t.at? (place ++ more) = (t.at? place).bind (·.at? more) := by
  induction place generalizing t with
  | nil => rfl
  | cons name place ih =>
    rw [List.cons_append, at?, at?]
    cases t.child? name with
    | none => rfl
    | some c => exact ih c

theorem linkCount_at? (h : t.linkCount = 0) (hat : t.at? place = some u) : u.linkCount = 0 := by
  induction place generalizing t with
  | nil =>
    obtain rfl := Option.some.inj hat
    exact h
  | cons name place ih =>
    obtain ⟨c, hc, hu⟩ := at?_cons_eq_some hat
    exact ih (linkCount_child? h hc) hu

theorem byteCount_append (s s' : Text) : byteCount (s ++ s') = byteCount s + byteCount s' := by
  have hfrom (s : Text) (n : Nat) : s.foldl (fun n c => n + c.utf8Size) n = n + byteCount s := by
    induction s using List.reverseRecOn with
    | nil => rfl
    | append_singleton s c ih =>
      rw [byteCount, List.foldl_concat, List.foldl_concat, ih, Nat.add_assoc]
      rfl
  rw [byteCount, List.foldl_append]
  exact hfrom s' (byteCount s)

end Tree

namespace Path
variable {above below : List Text}

theorem join_append (habove : above ≠ []) (hbelow : below ≠ []) :
    Text.join ['/'] (above ++ below) = Text.join ['/'] above ++ '/' :: Text.join ['/'] below := by
  induction above with
  | nil => exact absurd rfl habove
  | cons name above ih =>
    cases above with
    | nil =>
      obtain ⟨first, below, rfl⟩ := List.exists_cons_of_ne_nil hbelow
      simp [Text.join, List.intercalate]
    | cons next above =>
      have hrest := ih (by simp)
      simp only [Text.join, List.intercalate, List.cons_append, List.intersperse_cons_cons,
        List.flatten_cons, List.append_assoc] at hrest ⊢
      rw [hrest]

theorem text_append (habove : above ≠ []) (hbelow : below ≠ []) :
    text ⟨[], above ++ below⟩ = text ⟨[], above⟩ ++ '/' :: text ⟨[], below⟩ := by
  simp [text, habove, hbelow, join_append habove hbelow]

end Path

namespace Act
variable {p : Path} {w : Workspace} {place : Tree.Place} {t : Tree}

theorem lookUp_of_find (hnull : p.hasNull = false) (hshort : ¬ pathLimit < Tree.byteCount p.text)
    (hfind : w.tree.find (start p w) p.parts = .ok (place, some t)) :
    lookUp p w = (.ok (some (place, t)), w) := by
  have hok : find p w = (.ok (.ok (place, some t)), w) := by
    rw [find_eq, if_neg (by simp [hnull]), if_neg hshort, hfind]
  rw [lookUp, if_neg (by simp [hnull]), bind_of_ok _ hok]
  rfl

end Act

namespace Discovery
open Masthead.Tree (Place IsName IsNamed IsNamedIn isUp)
variable {base here names rest : Place} {excludes : List Text} {top : Tree} {path name : Text}

theorem reported_append (base rest : Place) :
    reported base (base ++ rest) = Path.text ⟨[], rest⟩ := by
  have hbase : base.isPrefixOf (base ++ rest) = true :=
    List.isPrefixOf_iff_prefix.mpr (List.prefix_append base rest)
  simp only [reported, hbase, if_true, List.drop_left]

/-- No directory on the way from a directory to what is at `rest` below it is pruned. -/
def IsOpen (base : Place) (excludes : List Text) (names rest : Place) : Prop :=
  ∀ above below, rest = above ++ below → above ≠ [] → below ≠ [] →
    isPruned base excludes (names ++ above) = false

theorem isOpen_single (base : Place) (excludes : List Text) (names : Place) (name : Text) :
    IsOpen base excludes names [name] := by
  intro above below heq habove hbelow
  have hlength := congrArg List.length heq
  have hpos := List.length_pos_iff.mpr habove
  have hpos' := List.length_pos_iff.mpr hbelow
  rw [List.length_append, List.length_singleton] at hlength
  omega

theorem isOpen_cons (hrest : rest ≠ []) :
    IsOpen base excludes names (name :: rest) ↔
      isPruned base excludes (names ++ [name]) = false ∧
      IsOpen base excludes (names ++ [name]) rest := by
  constructor
  · intro h
    refine ⟨h [name] rest rfl (by simp) hrest, fun above below heq habove hbelow => ?_⟩
    rw [List.append_assoc]
    exact h (name :: above) below (by rw [heq, List.cons_append]) (by simp) hbelow
  · rintro ⟨hname, hopen⟩ above below heq habove hbelow
    obtain ⟨first, above, rfl⟩ := List.exists_cons_of_ne_nil habove
    obtain ⟨rfl, rfl⟩ := List.cons.inj heq
    by_cases habove : above = []
    · subst habove
      exact hname
    · rw [show names ++ name :: above = names ++ [name] ++ above by simp]
      exact hopen above below rfl habove hbelow

/-! What a walk lists -/

mutual

theorem of_mem_filesAt {here names : Place} : ∀ t : Tree, t.linkCount = 0 → t.IsNamed →
    path ∈ filesAt top base excludes here names t →
    ∃ rest, path = reported base (names ++ rest) ∧ (∀ name ∈ rest, IsName name) ∧
      (rest ≠ [] → isPruned base excludes names = false ∧ IsOpen base excludes names rest)
  | .file .., _, _, h => by
    rw [filesAt, List.mem_singleton] at h
    exact ⟨[], by rw [h, List.append_nil], by simp, by simp⟩
  | .dir es, hlinks, hnamed, h => by
    rw [filesAt] at h
    split_ifs at h with hpruned
    · cases h
    · obtain ⟨name, more, hpath, hnames, hopen⟩ := of_mem_filesIn es hlinks hnamed h
      exact ⟨name :: more, hpath, hnames, fun _ => ⟨by simpa using hpruned, hopen⟩⟩
  | .link _, hlinks, _, _ => by cases hlinks

theorem of_mem_filesIn {here names : Place} :
    ∀ es : List (Text × Tree), Tree.linkCountIn es = 0 → IsNamedIn es →
    path ∈ filesIn top base excludes here names es →
    ∃ name more, path = reported base (names ++ name :: more) ∧ (∀ n ∈ name :: more, IsName n) ∧
      IsOpen base excludes names (name :: more)
  | [], _, _, h => by
    rw [filesIn] at h
    cases h
  | (name, t) :: es, hlinks, hnamed, h => by
    obtain ⟨hname, ht, hes⟩ := hnamed
    rw [Tree.linkCountIn] at hlinks
    rw [filesIn] at h
    rcases List.mem_append.mp h with h | h
    · obtain ⟨more, hpath, hmore, hopen⟩ := of_mem_filesAt t (by omega) ht h
      refine ⟨name, more, by simpa using hpath, List.forall_mem_cons.mpr ⟨hname, hmore⟩, ?_⟩
      by_cases hnil : more = []
      · subst hnil
        exact isOpen_single _ _ _ _
      · exact (isOpen_cons hnil).mpr (hopen hnil)
    · exact of_mem_filesIn es (by omega) hes h

end

theorem mem_filesIn_of_mem {es : List (Text × Tree)} {t : Tree} (he : (name, t) ∈ es)
    (h : path ∈ filesAt top base excludes (here ++ [name]) (names ++ [name]) t) :
    path ∈ filesIn top base excludes here names es := by
  induction es with
  | nil => cases he
  | cons e es ih =>
    rw [filesIn]
    rcases List.mem_cons.mp he with rfl | he
    · exact List.mem_append_left _ h
    · exact List.mem_append_right _ (ih he)

theorem mem_filesIn {es : List (Text × Tree)} {bytes : List UInt8} {isExecutable : Bool}
    (hat : (Tree.dir es).at? (name :: rest) = some (.file bytes isExecutable))
    (hopen : IsOpen base excludes names (name :: rest)) :
    reported base (names ++ name :: rest) ∈ filesIn top base excludes here names es := by
  induction rest generalizing here names name es with
  | nil =>
    obtain ⟨c, hc, hfile⟩ := Tree.at?_cons_eq_some hat
    obtain ⟨_, hes, hmem⟩ := Tree.mem_of_child? hc
    obtain rfl := Tree.dir.inj hes
    obtain rfl := Option.some.inj hfile
    exact mem_filesIn_of_mem hmem (by rw [filesAt]; exact List.mem_singleton_self _)
  | cons next rest ih =>
    obtain ⟨c, hc, hrest⟩ := Tree.at?_cons_eq_some hat
    obtain ⟨_, hes, hmem⟩ := Tree.mem_of_child? hc
    obtain rfl := Tree.dir.inj hes
    obtain ⟨d, hd, -⟩ := Tree.at?_cons_eq_some hrest
    obtain ⟨inner, rfl⟩ := Tree.exists_dir_of_child? hd
    obtain ⟨hname, hbelow⟩ := (isOpen_cons (by simp)).mp hopen
    refine mem_filesIn_of_mem hmem ?_
    rw [filesAt, if_neg (by simp [hname])]
    simpa using ih hrest hbelow

/-! Walking beside naming -/

section Beside
variable {includes : List Text} {w : Workspace} {directory : Path} {bytes : List UInt8}
  {isExecutable : Bool}

theorem mem_selected {found : List Text} :
    path ∈ filterPaths (Text.sort found.eraseDups) includes excludes ↔
      path ∈ found ∧ matchesAnyGlob path excludes = false ∧
      matchesAnyGlob path includes = true := by
  simp [filterPaths, Text.sort, List.mem_mergeSort, List.mem_eraseDups]

theorem discover_single {entries : List Text} {entry : Text} {found : List Text}
    (hentries : (if entries.isEmpty then [['.']] else entries) = [entry])
    (hbase : Act.resolve directory w = (.ok (Act.ofPlace base), w))
    (hfound : candidates base excludes entry w = (.ok found, w)) :
    discover entries includes excludes directory w =
      (.ok (filterPaths (Text.sort found.eraseDups) includes excludes), w) := by
  have hall : [entry].mapM (candidates (Act.ofPlace base).parts excludes) w = (.ok [found], w) :=
    Act.mapM_cons_of_ok [] hfound
  rw [discover, bind_of_ok _ hbase]
  simp only [hentries]
  rw [bind_of_ok _ hall, List.flatten_cons, List.flatten_nil, List.append_nil]
  rfl

theorem byteCount_text_le (base : Place) (hrest : rest ≠ []) :
    Tree.byteCount (Act.ofPlace base).text ≤ Tree.byteCount (Act.ofPlace (base ++ rest)).text := by
  have htext (place : Place) : Tree.byteCount (Act.ofPlace place).text =
      Tree.byteCount ['/'] + Tree.byteCount (Text.join ['/'] place) := Tree.byteCount_append ['/'] _
  rw [htext, htext]
  refine Nat.add_le_add_left ?_ _
  by_cases hbase : base = []
  · subst hbase
    exact Nat.zero_le _
  · rw [Path.join_append hbase hrest, Tree.byteCount_append]
    exact Nat.le_add_right _ _

theorem exists_dir_above (hlinks : w.tree.linkCount = 0) (hnamed : w.tree.IsNamed)
    (hrest : rest ≠ []) (hfile : Act.LeadsTo (Act.ofPlace (base ++ rest)) w (base ++ rest) bytes
      isExecutable) :
    ∃ es, Act.lookUp (Act.ofPlace base) w = (.ok (some (base, .dir es)), w) ∧
      (Tree.dir es).at? rest = some (.file bytes isExecutable) := by
  have hlinkless := Tree.linkless_of_linkCount hlinks
  obtain ⟨-, hat⟩ := hlinkless.find_eq hfile.found
  rw [Tree.at?_append] at hat
  obtain ⟨t, ht, hbelow⟩ := Option.bind_eq_some_iff.mp hat
  obtain ⟨name, more, rfl⟩ := List.exists_cons_of_ne_nil hrest
  obtain ⟨c, hc, -⟩ := Tree.at?_cons_eq_some hbelow
  obtain ⟨es, rfl⟩ := Tree.exists_dir_of_child? hc
  have hfollow : w.tree.follow Tree.linkLimit [] base = .ok base := by
    obtain ⟨hway, -⟩ := Tree.find_eq_ok_iff.mp hfile.found
    obtain ⟨_, here, -, hbase, -⟩ := Tree.follow_through
      (show w.tree.follow Tree.linkLimit [] (base ++ name :: more) = _ from hway)
    rw [hbase, hlinkless.follow_eq hbase, Tree.walk_names fun n hn => (hnamed.isName ht n hn).2]
    rfl
  refine ⟨es, Act.lookUp_of_find ?_ ?_ (Tree.find_eq_ok_iff.mpr ⟨hfollow, ht⟩), hbelow⟩
  · have hvalid := hfile.valid
    simp only [Path.hasNull, Act.ofPlace, List.any_append, Bool.or_eq_false_iff] at hvalid
    exact hvalid.1
  · exact fun hlong => hfile.short (hlong.trans_le (byteCount_text_le base hrest))

/-- What a walk from a directory lists is what it can get to. -/
theorem mem_walked {es : List (Text × Tree)} (hdir : w.tree.at? base = some (.dir es))
    (hlinks : w.tree.linkCount = 0) (hnamed : w.tree.IsNamed) (hparts : ∀ name ∈ rest, IsName name)
    (hfile : (Tree.dir es).at? rest = some (.file bytes isExecutable)) :
    Path.text ⟨[], rest⟩ ∈ filesIn w.tree base excludes base base es ↔
    IsOpen base excludes base rest := by
  have hinner : (Tree.dir es).linkCount = 0 ∧ (Tree.dir es).IsNamed :=
    ⟨Tree.linkCount_at? hlinks hdir, hnamed.at? hdir⟩
  constructor
  · intro h
    obtain ⟨name, more, hpath, hnames, hopen⟩ := of_mem_filesIn es hinner.1 hinner.2 h
    rw [reported_append] at hpath
    have hsame := congrArg Path.ofText hpath
    rw [Path.ofText_text fun part hpart => (hparts part hpart).1,
      Path.ofText_text fun part hpart => (hnames part hpart).1] at hsame
    obtain rfl : rest = name :: more := congrArg Path.parts hsame
    exact hopen
  · intro hopen
    rw [← reported_append base rest]
    cases rest with
    | nil => cases hfile
    | cons name more => exact mem_filesIn hfile hopen

theorem isOpen_iff (hskipped : ∀ name ∈ rest.dropLast, name ∉ skippedNames) :
    IsOpen base excludes base rest ↔ ∀ above below, rest = above ++ below → above ≠ [] →
    below ≠ [] →
      matchesAnyGlob (Path.text ⟨[], above⟩ ++ ['/']) excludes = false := by
  refine forall_congr' fun above => forall_congr' fun below => forall_congr' fun heq =>
    forall_congr' fun habove => forall_congr' fun hbelow => ?_
  subst heq
  have hlast : (base ++ above).getLast?.getD [] ∈ (above ++ below).dropLast := by
    obtain ⟨front, name, rfl⟩ := (List.eq_nil_or_concat above).resolve_left habove
    obtain ⟨first, below, rfl⟩ := List.exists_cons_of_ne_nil hbelow
    simp [List.dropLast_append_of_ne_nil]
  rw [isPruned, reported_append, Bool.or_eq_false_iff]
  exact and_iff_right (by simpa using hskipped _ hlast)

/-- A file below a directory is found on a walk from there exactly if it is found when it is named
and no directory on the way is covered by an exclusion. The patterns that cover what is below the
directories they match make no difference. -/
theorem walked_iff (hlinks : w.tree.linkCount = 0) (hnamed : w.tree.IsNamed)
    (hbase : Act.resolve directory w = (.ok (Act.ofPlace base), w)) (hrest : rest ≠ [])
    (hfile : Act.LeadsTo (Act.ofPlace (base ++ rest)) w (base ++ rest) bytes isExecutable)
    (hskipped : ∀ name ∈ rest.dropLast, name ∉ skippedNames) :
    ∃ walked named,
      discover [] includes excludes directory w = (.ok walked, w) ∧
      discover [Path.text ⟨[], rest⟩] includes excludes directory w = (.ok named, w) ∧
      (Path.text ⟨[], rest⟩ ∈ walked ↔ Path.text ⟨[], rest⟩ ∈ named ∧
        ∀ above below, rest = above ++ below → above ≠ [] → below ≠ [] →
          matchesAnyGlob (Path.text ⟨[], above⟩ ++ ['/']) excludes = false) ∧
      ((∀ pattern ∈ excludes, ¬ Glob.Shallow pattern) →
        (Path.text ⟨[], rest⟩ ∈ walked ↔ Path.text ⟨[], rest⟩ ∈ named)) := by
  obtain ⟨-, hat⟩ := (Tree.linkless_of_linkCount hlinks).find_eq hfile.found
  have hparts : ∀ name ∈ rest, IsName name :=
    fun name hname => hnamed.isName hat name (List.mem_append_right base hname)
  obtain ⟨es, hlook, hbelow⟩ := exists_dir_above hlinks hnamed hrest hfile
  obtain ⟨-, hfound⟩ := Act.lookUp_eq_ok hlook
  obtain ⟨-, hdir⟩ := (Tree.linkless_of_linkCount hlinks).find_eq (hfound _ _ rfl)
  have hwalk : candidates base excludes ['.'] w =
      (.ok (filesIn w.tree base excludes base base es), w) := by
    have hjoin : (Act.ofPlace base).join (Path.ofText ['.']) = Act.ofPlace base :=
      congrArg (Path.mk ['/']) (List.append_nil base)
    rw [candidates, hjoin, bind_of_ok _ hlook]
    rfl
  have hname : candidates base excludes (Path.text ⟨[], rest⟩) w =
      (.ok [Path.text ⟨[], rest⟩], w) := by
    have hjoin : (Act.ofPlace base).join (Path.ofText (Path.text ⟨[], rest⟩)) =
        Act.ofPlace (base ++ rest) := by
      rw [Path.ofText_text fun part hpart => (hparts part hpart).1]
      rfl
    rw [candidates, hjoin, bind_of_ok _ (Act.lookUp_of_find hfile.valid hfile.short hfile.found)]
    change (Except.ok [reported base (base ++ rest)], w) = _
    rw [reported_append]
  refine ⟨_, _, discover_single rfl hbase hwalk, discover_single rfl hbase hname, ?_⟩
  have hlisted : Path.text ⟨[], rest⟩ ∈ filesIn w.tree base excludes base base es ↔
      IsOpen base excludes base rest :=
    mem_walked hdir hlinks hnamed hparts hbelow
  have hiff := hlisted.trans (isOpen_iff hskipped)
  simp only [mem_selected, List.mem_singleton, true_and, hiff]
  refine ⟨and_comm, fun hdeep => and_iff_right_of_imp fun hselected above below heq habove hbelow =>
    ?_⟩
  -- a pattern that covers a directory on the way covers the file as well
  by_contra hcovered
  have hmatches := matchesAnyGlob_below hdeep (Bool.of_not_eq_false hcovered)
    (Path.text ⟨[], below⟩)
  rw [← Path.text_append habove hbelow, ← heq, hselected.1] at hmatches
  cases hmatches

end Beside

section Examples

def nested : Workspace where
  tree := .dir [("src".toList, .dir [("a".toList, .dir [("b.ts".toList, .file [] false)])])]
  cwd := []
  year := 2025
  git := fun _ _ => .unavailable

theorem walked_iff_nested :
    nested.tree.linkCount = 0 ∧
      Act.LeadsTo (Act.ofPlace ["src".toList, "a".toList, "b.ts".toList]) nested
        ["src".toList, "a".toList, "b.ts".toList] [] false ∧
      ∃ walked named,
        discover [] ["**/*.ts".toList] ["**/dist/**".toList] ⟨[], []⟩ nested =
        (.ok walked, nested) ∧
        discover ["src/a/b.ts".toList] ["**/*.ts".toList] ["**/dist/**".toList] ⟨[], []⟩ nested =
          (.ok named, nested) ∧
        ("src/a/b.ts".toList ∈ walked ↔ "src/a/b.ts".toList ∈ named) := by
  have hfile : Act.LeadsTo (Act.ofPlace ["src".toList, "a".toList, "b.ts".toList]) nested
      ["src".toList, "a".toList, "b.ts".toList] [] false := ⟨by decide, by decide, by cbv⟩
  have hnamed : nested.tree.IsNamed :=
    ⟨by decide, ⟨by decide, ⟨by decide, trivial, trivial⟩, trivial⟩, trivial⟩
  obtain ⟨walked, named, hwalked, hname, -, hiff⟩ :=
    @walked_iff [] _ ["**/dist/**".toList] ["**/*.ts".toList]
    nested ⟨[], []⟩ _ _ rfl hnamed (by cbv) (by simp) hfile (by decide)
  exact ⟨rfl, hfile, walked, named, hwalked, hname, hiff (by decide)⟩

/-- A star can stand for no name at all. An exclusion of what is in a directory then covers the
directory, and with it files that the exclusion does not cover. -/
theorem not_walked_of_star :
    nested.tree.linkCount = 0 ∧ ¬ ['/'] <:+ "src/*".toList ∧
      (discover [] ["**/*.ts".toList] ["src/*".toList] ⟨[], []⟩ nested).1 = .ok [] ∧
      (discover ["src/a/b.ts".toList] ["**/*.ts".toList] ["src/*".toList] ⟨[], []⟩ nested).1 =
        .ok ["src/a/b.ts".toList] := by
  refine ⟨rfl, by decide, by cbv, by cbv⟩

end Examples

end Discovery
end Masthead
