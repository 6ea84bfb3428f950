import Masthead.Proofs.Config.Rereading
import Masthead.Proofs.Toml.Plain

/-! Giving a project its configuration. What a project without one is set to stays as it is when the
starting values have been written, and they are written once. Of the library this takes that its
documents are dictionaries, and that what it writes is read as the data that it had. -/

namespace Masthead.Config
open Act (LeadsTo Aims)
variable {p project file : Path} {w w' : Workspace} {place target : Tree.Place}
  {license : Option Text}

/-! Writing -/

theorem store_eq_ok {s : Points} (hstart : Tree.Stands w.tree (Act.start p w))
    (h : store p s w = (.ok true, w')) :
    ∃ t place tree, s = .ofText t ∧ Aims p w place ∧ w' = { w with tree } ∧
    w.Written place (Utf8.encode t) w' := by
  rw [store, bind_of_ok _ (Act.attempt_apply _ _)] at h
  rcases hwrite : Act.writePoints p s w with ⟨cause | ⟨⟩, w₁⟩
  · rw [hwrite] at h
    cases cause <;> cases h
  · rw [hwrite] at h
    cases h
    cases hhalf : s.half? with
    | some half =>
      rw [Act.writePoints, hhalf] at hwrite
      obtain ⟨_, _, -, hrest⟩ := bind_eq_ok hwrite
      cases hrest
    | none =>
      rw [Act.writePoints, hhalf] at hwrite
      obtain ⟨place, tree, haims, htree, hwritten⟩ := Act.written_of_writeText hstart hwrite
      exact ⟨_, place, tree, Points.half?_eq_none_iff.mp hhalf, haims, htree, hwritten⟩

theorem given_of_isFile {text : Text} (h : (Act.isFile p w).1 = .ok true)
    (hgiven : (given p w).1 = .ok text) :
    (readText p w).1 = .ok text := by
  obtain ⟨q, bytes, b, hleads⟩ := Act.isFile_fst_eq_true.mp h
  obtain ⟨haims, hat⟩ := hleads.aims
  have hthere : (reading p (Act.isThere p) w).1 = .ok true := by
    rw [reading, bind_of_ok _ (Act.attempt_apply _ _), Act.isThere_eq, haims.seen_eq, hat]
    rfl
  rw [given, (looks_reading p (Act.looks_isThere p)).bind_fst, hthere] at hgiven
  exact hgiven

theorem address_tree (usesGit : Bool) (directory : Path) (w : Workspace) (tree : Tree) :
    (address usesGit directory { w with tree }).1 = (address usesGit directory w).1 := by
  cases usesGit with
  | false => rfl
  | true => exact (Git.setting_fst _ _ _).trans (Git.setting_fst _ _ w).symm

theorem resolve_fst_eq_ok {base : Path} (hstart : Tree.Stands w.tree (Act.start p w))
    (haims : Aims p w place) (h : (Act.resolve p w).1 = .ok base) :
    (Act.ofPlace place).hasNull = false ∧ base = Act.ofPlace place := by
  rw [Act.resolve_fst, if_neg (by simp [haims.valid]), hstart.real_eq haims.way, Act.find_eq] at h
  split_ifs at h with hnull
  · cases h
    exact ⟨by simpa using hnull, rfl⟩
  · refine ⟨by simpa using hnull, ?_⟩
    dsimp only at h
    split at h
    · next hfind => cases hfind
    · cases h
    · cases h
      rfl

theorem mem_sourceNames (directory : Path) {name : Text}
    (hname : name = fileName ∨ name = projectFileName) :
    directory.child name ∈ sourceNames.map directory.child := by
  refine List.mem_map_of_mem ?_
  rcases hname with rfl | rfl
  · exact List.mem_cons_self
  · exact List.mem_cons_of_mem _ List.mem_cons_self

section Writing
variable [Toml.Library] {keys : List Text} {values : List (Text × Toml.Content)} {text s : Text}
  {d d' : Toml.Document}

/-- The library makes a document of a text, and a new text of the document with the values. -/
structure Amends (keys : List Text) (values : List (Text × Toml.Content)) (text : Text)
    (d d' : Toml.Document) (s : Text) : Prop where
  parse : Toml.Library.parse text = .ok d
  add : d.add keys values = .ok d'
  text : Toml.Library.text d' = .ok (.ofText s)

theorem extend_eq_ok (h : extend p keys values text w = (.ok true, w')) :
    ∃ d d' s, Toml.Library.parse text = .ok d ∧ Toml.Document.add d keys values = .ok d' ∧
      Toml.Library.text d' = .ok s ∧ store p s w = (.ok true, w') := by
  obtain ⟨d, w₁, hd, hamend⟩ := bind_eq_ok h
  cases hparse : Toml.Library.parse text with
  | error e =>
    rw [hparse] at hd
    cases hd
  | ok d₀ =>
    rw [hparse] at hd
    cases hd
    rw [amend] at hamend
    rcases hadd : Toml.Document.add d keys values with (key | _ | cause) | d' <;>
      rw [hadd] at hamend
    · cases hamend
    · cases hamend
    · cases hamend
    · obtain ⟨s, w₂, hs, hstore⟩ := bind_eq_ok hamend
      rcases htext : Toml.Library.text d' with cause | s'
      · rw [htext] at hs
        cases hs
      · rw [htext] at hs
        cases hs
        exact ⟨d, d', s, rfl, hadd, htext, hstore⟩

theorem addSection_eq_ok (hstart : Tree.Stands w.tree (Act.start p w))
    (h : addSection p keys values w = (.ok true, w')) :
    ∃ text d d' s place tree, (given p w).1 = .ok text ∧ Amends keys values text d d' s ∧
    Aims p w place ∧
      w' = { w with tree } ∧ w.Written place (Utf8.encode s) w' := by
  rw [addSection_eq] at h
  obtain ⟨text, hgiven, hextend⟩ := (looks_given p).bind_eq_ok h
  obtain ⟨d, d', s, hparse, hadd, htext, hstore⟩ := extend_eq_ok hextend
  obtain ⟨t, place, tree, rfl, haims, htree, hwritten⟩ := store_eq_ok hstart hstore
  exact ⟨text, d, d', t, place, tree, hgiven, ⟨hparse, hadd, htext⟩, haims, htree, hwritten⟩

end Writing

/-! The steps of giving a configuration -/

def keysIn (p : Path) : List Text :=
  if p.name = projectFileName then ["tool".toList, sectionName] else []

theorem name_child (p : Path) (name : Text) : (p.child name).name = name := by
  rw [Path.name, Path.child, List.getLast?_concat, Option.getD_some]

theorem parent_child (p : Path) (name : Text) : (p.child name).parent = p := by
  rw [Path.parent, Path.child, List.dropLast_concat]

theorem isManifest_child (directory : Path) (name : Text)
    (hname : name = fileName ∨ name = projectFileName) :
    isManifest (directory.child name) = false := by
  rw [isManifest, Path.suffix, name_child]
  rcases hname with rfl | rfl <;> decide

section Project
variable [Limits] [Toml.Library]

theorem writeStarter_eq_ok (h : writeStarter project w = (.ok (file, true), w')) :
    (∀ p ∈ sourceNames.map project.child, (read p false w).1 = .ok none) ∧
      ∃ license, (detectLicense project w).1 = .ok license ∧
        addSection file (keysIn file) (starter license) w = (.ok true, w') ∧
        ((Act.isFile (project.child projectFileName) w).1 = .ok true ∧
          file = project.child projectFileName ∨
          file = project.child fileName) := by
  unfold writeStarter existing at h
  rw [bind_assoc] at h
  obtain ⟨first, hfirst, hnew⟩ := (looks_firstIn project sourceNames).bind_eq_ok h
  cases first with
  | some f => cases hnew
  | none =>
    obtain ⟨license, hlicense, hset⟩ := (looks_detectLicense project).bind_eq_ok hnew
    refine ⟨?_, license, hlicense, ?_⟩
    · rw [← search_fst_eq_none fun q => looks_read q false, ← firstIn_eq, hfirst]
    · obtain ⟨isFile, hfile, hadd⟩ :=
        (Act.looks_isFile (project.child projectFileName)).bind_eq_ok hset
      cases isFile with
      | true =>
        obtain ⟨added, w₁, hadded, hrest⟩ := bind_eq_ok hadd
        cases hrest
        rw [keysIn, name_child, if_pos rfl]
        exact ⟨hadded, Or.inl ⟨hfile, rfl⟩⟩
      | false =>
        obtain ⟨added, w₁, hadded, hrest⟩ := bind_eq_ok hadd
        cases hrest
        rw [keysIn, name_child, if_neg (by decide)]
        exact ⟨hadded, Or.inr rfl⟩

/-! What the files hold afterwards -/

section Afterwards
variable {directory : Path} {s text : Text} {after : Table} {tree : Tree}

theorem loaded_of_written (hw : w.Written target (Utf8.encode s) w') (haims : Aims p w target) :
    (Act.isFile p w').1 = .ok true ∧ (loaded p w').1 = understood p (Source.normalize s) := by
  obtain ⟨b, hleads⟩ := haims.written hw
  exact ⟨Act.isFile_fst_eq_true.mpr ⟨_, _, b, hleads⟩, loaded_of_encode hleads⟩

theorem understood_of_parse (hkind : isManifest p = false) (hparse : Toml.parse s = .ok after) :
    understood p s = .ok (.settings after) := by
  rw [understood, hkind, if_neg Bool.false_ne_true, hparse]
  rfl

theorem read_of_written (hw : w.Written target (Utf8.encode s) w') (haims : Aims p w target)
    (hkind : isManifest p = false) (hparse : Toml.parse (Source.normalize s) = .ok after) :
    (read p false w').1 = .ok ((Contents.settings after).found? p false) := by
  obtain ⟨hfile, hloaded⟩ := loaded_of_written hw haims
  rw [read_fst, hfile, Except.bind, if_pos rfl, hloaded, understood_of_parse hkind hparse]
  rfl

theorem firstIn_own (hw : w.Written target (Utf8.encode s) w')
    (haims : Aims (directory.child fileName) w target)
    (hparse : Toml.parse (Source.normalize s) = .ok after) :
    (firstIn directory sourceNames w').1 = .ok
    (some ⟨directory.child fileName, some after, false, none⟩) := by
  have hread := read_of_written hw haims (isManifest_child directory fileName (Or.inl rfl)) hparse
  rw [Contents.found?, name_child, if_neg (by decide)] at hread
  rw [firstIn_eq, sourceNames, List.cons_append, List.map_cons, search,
    (looks_read _ _).bind_fst, hread]
  rfl

theorem firstIn_project {section' : Table} (hw : w.Written target (Utf8.encode s) w')
    (haims : Aims (directory.child projectFileName) w target)
    (hown : ¬ Aims (directory.child fileName) w target)
    (hnone : (read (directory.child fileName) false w).1 = .ok none)
    (hparse : Toml.parse (Source.normalize s) = .ok after)
    (hsection : (after.follow ["tool".toList]).get? sectionName = some (.table section')) :
    (firstIn directory sourceNames w').1 =
      .ok (some ⟨directory.child projectFileName, some section', false, projectLicense after⟩) := by
  have hhas : (after.follow ["tool".toList]).has sectionName = true := by
    obtain ⟨e, he, -⟩ := Option.map_eq_some_iff.mp hsection
    exact List.any_eq_true.mpr ⟨e, List.mem_of_find?_eq_some he, by simpa using List.find?_some he⟩
  have hfollow : (after.follow ["tool".toList]).follow [sectionName] = section' := by
    rw [Table.follow, hsection]
    rfl
  have hread := read_of_written hw haims (isManifest_child directory projectFileName (Or.inr rfl))
    hparse
  rw [Contents.found?, name_child, if_pos rfl] at hread
  dsimp only at hread
  rw [hhas, hfollow] at hread
  rw [firstIn_eq, sourceNames, List.cons_append, List.cons_append, List.map_cons,
    List.map_cons, search, (looks_read _ _).bind_fst, read_written hw hown, hnone]
  change (search _ _ w').1 = _
  rw [search, (looks_read _ _).bind_fst, hread]
  rfl

theorem licenseIn_project (hw : w.Written target (Utf8.encode s) w') (haims : Aims p w target)
    (hkind : isManifest p = false) (hparse : Toml.parse (Source.normalize s) = .ok after) :
    (licenseIn p w').1 = .ok (projectLicense after) := by
  obtain ⟨hfile, hloaded⟩ := loaded_of_written hw haims
  rw [licenseIn_fst, hfile, Except.bind, if_pos rfl, hloaded, understood_of_parse hkind hparse]
  rfl

theorem licenseIn_not_json (hw : w.Written target (Utf8.encode s) w') (haims : Aims p w target)
    (hkind : isManifest p = true) (hparse : Json.parse (Source.normalize s) = .error .malformed) :
    (licenseIn p w').1 = .ok none := by
  obtain ⟨hfile, hloaded⟩ := loaded_of_written hw haims
  rw [licenseIn_fst, hfile, Except.bind, if_pos rfl, hloaded, understood, hkind, if_pos rfl, hparse]
  rfl

/-- A project that declares no license declares none afterwards, as neither a project file nor a
manifest that was written says one. -/
theorem detectLicense_written (hw : w.Written target (Utf8.encode s) w') (h : IsAt p w place)
    (hnone : ∀ q ∈ manifests place, (licenseIn q w).1 = .ok none)
    (hparse : Toml.parse (Source.normalize s) = .ok after) (hsilent : projectLicense after = none)
    (hjson : ∀ q ∈ manifests place, isManifest q = true → Aims q w target →
      Json.parse (Source.normalize s) = .error .malformed) :
    (detectLicense p w').1 = .ok none := by
  rw [(h.written hw).detectLicense_fst, search_fst_eq_none looks_licenseIn]
  intro q hq
  by_cases haims : Aims q w target
  · cases hkind : isManifest q with
    | false => rw [licenseIn_project hw haims hkind hparse, hsilent]
    | true => exact licenseIn_not_json hw haims hkind (hjson q hq hkind haims)
  · rw [licenseIn_written hw haims]
    exact hnone q hq

theorem detectLicense_unknown (h : IsAt p w place)
    (hlicense : (detectLicense p w).1 = .ok (license.map Points.ofText))
    (hunknown : known? license = none) :
    license = none ∧ ∀ q ∈ manifests place, (licenseIn q w).1 = .ok none := by
  rw [h.detectLicense_fst] at hlicense
  cases license with
  | none => exact ⟨rfl, (search_fst_eq_none looks_licenseIn).mp hlicense⟩
  | some s =>
    obtain ⟨q, -, hq⟩ := exists_of_search_eq_some looks_licenseIn hlicense
    have hs := licenseIn_ne_nil hq
    rw [known?, Option.filter_some, ite_eq_right_iff] at hunknown
    cases s with
    | nil => exact absurd rfl hs
    | cons c s => cases hunknown rfl

end Afterwards

/-! What a project is set to -/

section Loading
variable {usesGit : Bool} {c : Config} {name : Text} {own : Option Points} {tree : Tree}
  {email : Option Text} {t : Table}

theorem IsAt.discover_eq_some (h : IsAt p w place) {f : Found}
    (hfirst : (firstIn (Act.ofPlace place) sourceNames w).1 = .ok (some f)) :
    (discover p w).1 = .ok (some f) := by
  obtain ⟨above, habove⟩ := exists_sources place
  rw [firstIn_eq] at hfirst
  rw [h.discover_fst, habove, search_append, bind_fst_eq_ok]
  exact ⟨some f, hfirst, rfl⟩

theorem exists_settled (h : IsAt project w place)
    (hload : (load none project {} usesGit w).1 = .ok c)
    (hnone : (discover project w).1 = .ok none) :
    ∃ license email : Option Text, (detectLicense project w).1 = .ok (license.map Points.ofText) ∧
      (address usesGit (Act.ofPlace place) w).1 = .ok email ∧
      c = (settled none {} license email).filled := by
  obtain ⟨base, found, license, email, hbase, hfound, -, -, hdeclared, haddress, -, rfl⟩ :=
    load_fst_eq_ok.mp hload
  obtain rfl := Except.ok.inj (h.resolve_fst.symm.trans hbase)
  obtain rfl : found = none := by
    rw [source, h.ofPlace.discover_fst, ← h.discover_fst, hnone] at hfound
    exact (Except.ok.inj hfound).symm
  refine ⟨license, email, ?_, haddress, rfl⟩
  have hdetect := hdeclared (by rw [highest_nil_iff]; rfl)
  change (detectLicense (Act.ofPlace place) w).1 = _ at hdetect
  rwa [h.ofPlace.detectLicense_fst, ← h.detectLicense_fst] at hdetect

/-- With the starting values in one of its files a project is set to the same. -/
theorem load_of_started (h : IsAt project { w with tree } place)
    (hsame : ∀ key, t.get? key = (startingTable license).get? key)
    (haddress : (address usesGit (Act.ofPlace place) w).1 = .ok email)
    (hfirst : (firstIn (Act.ofPlace place) sourceNames { w with tree }).1 =
      .ok (some ⟨(Act.ofPlace place).child name, some t, false, own⟩))
    (hunknown : known? license = none → own = none ∧
      (detectLicense (Act.ofPlace place) { w with tree }).1 = .ok none) :
    (load none project {} usesGit { w with tree }).1 =
      .ok { (settled none {} license email).filled
        with files := [((Act.ofPlace place).child name).text] } := by
  have hhome : home (some ⟨(Act.ofPlace place).child name, some t, false, own⟩)
      (Act.ofPlace place) =
      Act.ofPlace place := parent_child _ _
  have hworded : (layers (layerOf (some ⟨(Act.ofPlace place).child name, some t, false, own⟩))
      {}).worded = [] := by
    rw [layerOf_starting hsame]
    rfl
  refine load_fst_eq_ok.mpr ⟨Act.ofPlace place, _, none, email, h.resolve_fst,
    h.ofPlace.discover_eq_some hfirst, rfl, writable_starting hsame, fun hhighest => ?_, ?_,
    by rw [hworded]; rfl, (settled_starting hsame fun _ => rfl).symm⟩
  · have htable : tableOf (some ⟨(Act.ofPlace place).child name, some t, false, own⟩) = t := rfl
    rw [htable, setting_starting hsame, highest_nil_iff] at hhighest
    have hopen : known? license = none := by
      rcases license with _ | _ | ⟨c, rest⟩
      · rfl
      · rfl
      · cases hhighest
    obtain ⟨rfl, hdetect⟩ := hunknown hopen
    rw [declared, hhome]
    exact hdetect
  · rw [hhome, address_tree]
    exact haddress

theorem writeStarter_of_found {f : Found} (h : (firstIn project sourceNames w).1 = .ok (some f)) :
    writeStarter project w = (.ok (f.path, false), w) := by
  have hfirst : firstIn project sourceNames w = (.ok (some f), w) :=
    Prod.ext h ((looks_firstIn project sourceNames).still w)
  unfold writeStarter existing
  rw [bind_assoc, bind_of_ok _ hfirst]
  rfl

end Loading

/-! Once and for all -/

section Once
variable {es : List (Text × Tree)} {usesGit : Bool} {c : Config}

theorem isAt_of_discover (hcwd : Tree.Stands w.tree w.cwd)
    (hproject : (Act.lookUp project w).1 = .ok (some (place, .dir es)))
    (hnone : (discover project w).1 = .ok none) : IsAt project w place := by
  rw [Act.lookUp_eq] at hproject
  obtain ⟨haims, hat⟩ := Act.seen_eq_some hproject
  have hstart : Tree.Stands w.tree (Act.start project w) := by
    rw [Act.start]
    split_ifs
    · exact .top hcwd.isDir
    · exact hcwd
  rw [discover, (looks_startDirectory project).bind_fst_eq_ok] at hnone
  obtain ⟨first, hfirst, -⟩ := hnone
  rw [startDirectory, (Act.looks_resolve project).bind_fst_eq_ok] at hfirst
  obtain ⟨resolved, hresolved, hrest⟩ := hfirst
  obtain ⟨hvalid, rfl⟩ := resolve_fst_eq_ok hstart haims hresolved
  rw [(Act.looks_isFile _).bind_fst_eq_ok] at hrest
  obtain ⟨isFile, hfile, -⟩ := hrest
  exact ⟨hstart, haims, (hstart.ends haims.way).stands hat, hvalid, short_of_isFile hvalid hfile⟩

/-- What the library writes with the values into a file is read as the data that it had. -/
def IsReadBack (p : Path) (values : List (Text × Toml.Content)) (w : Workspace) : Prop :=
  ∀ text d d' s, (given p w).1 = .ok text → Amends (keysIn p) values text d d' s →
    ∃ t t', Toml.Library.data d' = .ok t ∧ Toml.parse (Source.normalize s) = .ok t' ∧ t'.Alike t

/-- What the library writes is no JSON, should the file be a manifest by another name. -/
def IsNoJson (p : Path) (place : Tree.Place) (values : List (Text × Toml.Content)) (w : Workspace) :
    Prop :=
  ∀ q ∈ manifests place, isManifest q = true → ∀ target, Aims p w target → Aims q w target →
    ∀ text d d' s, (given p w).1 = .ok text → Amends (keysIn p) values text d d' s →
      Json.parse (Source.normalize s) = .error .malformed

theorem read_sources (h : IsAt project w place) (hnone : (discover project w).1 = .ok none) :
    ∀ p ∈ sourceNames.map (Act.ofPlace place).child, (read p false w).1 = .ok none := by
  obtain ⟨above, habove⟩ := exists_sources place
  rw [h.discover_fst, habove, search_fst_eq_none fun q => looks_read q false,
    List.forall_mem_append] at hnone
  exact hnone.1

/-- What there is after the starting values have been written: the two ways to the directory lead to
the file with them, and a project without a license still has none. -/
structure Started (project file : Path) (place : Tree.Place) (license : Option Text) (t : Table)
    (own : Option Points) (w' : Workspace) : Prop where
  isAt : IsAt project w' place
  values : ∀ key, t.get? key = (startingTable license).get? key
  here : (firstIn project sourceNames w').1 =
    .ok (some ⟨project.child file.name, some t, false, own⟩)
  known : (firstIn (Act.ofPlace place) sourceNames w').1 =
    .ok (some ⟨(Act.ofPlace place).child file.name, some t, false, own⟩)
  unlicensed : known? license = none → own = none ∧
    (detectLicense (Act.ofPlace place) w').1 = .ok none

theorem started_own (hlaws : Toml.IsDictionary) (h : IsAt project w place)
    (hnone : (discover project w).1 = .ok none)
    (hlicense : (detectLicense project w).1 = .ok (license.map Points.ofText))
    (hback : IsReadBack (project.child fileName) (starter (license.map Points.ofText)) w)
    (hjson : license = none → IsNoJson (project.child fileName) place (starter none) w)
    (hadded : addSection (project.child fileName) [] (starter (license.map Points.ofText)) w =
    (.ok true, w')) :
    ∃ tree t own, w' = { w with tree } ∧
    Started project (project.child fileName) place license t own w' := by
  have hkeys : keysIn (project.child fileName) = [] := by
    rw [keysIn, name_child, if_neg (by decide)]
  obtain ⟨text, d, d', s, target, tree, hgiven, hamends, haims, htree, hwritten⟩ :=
    addSection_eq_ok (h.start_child _) hadded
  obtain ⟨t, t', ht, hparse, halike⟩ := hback text d d' s hgiven (hkeys.symm ▸ hamends)
  -- there was nothing in the document, so that its data are the values
  obtain ⟨u, hu, hvalues⟩ := hlaws.data_addPlain (table?_starter license) (nodup_starter _)
    hamends.add
  obtain rfl : u = t := Except.ok.inj (hu.symm.trans ht)
  have hsame (key : Text) : t'.get? key = (startingTable license).get? key := by
    rw [halike.get?_eq fun inner => hvalues key ▸ get?_startingTable_ne_table license key inner,
      hvalues]
  obtain ⟨b, hknown⟩ := exists_isFile (read_sources h hnone _ (mem_sourceNames _ (Or.inl rfl)))
  refine ⟨tree, t', none, htree, h.written hwritten, hsame, ?_, ?_, fun hopen => ⟨rfl, ?_⟩⟩
  · rw [name_child]
    exact firstIn_own hwritten haims hparse
  · rw [name_child]
    exact firstIn_own hwritten (h.aims_child haims hknown) hparse
  · obtain ⟨rfl, hunlicensed⟩ := detectLicense_unknown h hlicense hopen
    have hsilent : projectLicense t' = projectLicense [] :=
      projectLicense_congr ((hsame _).trans rfl)
    exact detectLicense_written hwritten h.ofPlace hunlicensed hparse hsilent fun q hmem hkind hq =>
      hjson rfl q hmem hkind target haims hq text d d' s hgiven (hkeys.symm ▸ hamends)

theorem not_aims_own {directory : Path} {q : Tree.Place} {bytes : List UInt8} {b : Bool}
    (hleads : LeadsTo p w q bytes b) (hnone : (read (directory.child fileName) false w).1 =
      .ok none) : ¬ Aims (directory.child fileName) w q := by
  intro haims
  have hthere := Act.isFile_fst_eq_true.mpr ⟨q, bytes, b, haims.leadsTo hleads.aims.2⟩
  rw [isFile_of_read_eq_none (isManifest_child _ _ (Or.inl rfl)) (by rw [name_child]; decide) hnone]
    at hthere
  cases hthere

theorem loaded_eq_ok_iff {text : Text} {d : Toml.Document} {t : Table}
    (hkind : isManifest p = false) (hread : (readText p w).1 = .ok text)
    (hparse : Toml.Library.parse text = .ok d) :
    (loaded p w).1 = .ok (.settings t) ↔ Toml.Library.data d = .ok t := by
  rw [loaded_fst, hread]
  change understood p text = _ ↔ _
  rw [understood, hkind, if_neg Bool.false_ne_true, Toml.parse, hparse]
  change (((Toml.Library.data d).mapError Toml.Fault.foreign).mapError _).map _ = _ ↔ _
  cases Toml.Library.data d <;> simp [Except.mapError, Except.map]

theorem licenseIn_of_loaded {t : Table} (hfile : (Act.isFile p w).1 = .ok true)
    (h : (loaded p w).1 = .ok (.settings t)) : (licenseIn p w).1 = .ok (projectLicense t) := by
  rw [licenseIn_fst, hfile, Except.bind, if_pos rfl, h]
  rfl

theorem started_project (hlaws : Toml.IsDictionary) (h : IsAt project w place)
    (hnone : (discover project w).1 = .ok none)
    (hlicense : (detectLicense project w).1 = .ok (license.map Points.ofText))
    (hexisting : ∀ p ∈ sourceNames.map project.child, (read p false w).1 = .ok none)
    (hback : IsReadBack (project.child projectFileName) (starter (license.map Points.ofText)) w)
    (hjson : license = none → IsNoJson (project.child projectFileName) place (starter none) w)
    (hfile : (Act.isFile (project.child projectFileName) w).1 = .ok true)
    (hadded : addSection (project.child projectFileName) ["tool".toList, sectionName]
      (starter (license.map Points.ofText)) w = (.ok true, w')) :
    ∃ tree t own, w' = { w with tree } ∧
      Started project (project.child projectFileName) place license t own w' := by
  have hkeys : keysIn (project.child projectFileName) = ["tool".toList, sectionName] := by
    rw [keysIn, name_child, if_pos rfl]
  have hkind (directory : Path) : isManifest (directory.child projectFileName) = false :=
    isManifest_child _ _ (Or.inr rfl)
  obtain ⟨text, d, d', s, target, tree, hgiven, hamends, haims, htree, hwritten⟩ :=
    addSection_eq_ok (h.start_child _) hadded
  obtain ⟨t, after, ht, hparse, halike⟩ := hback text d d' s hgiven (hkeys.symm ▸ hamends)
  -- what the project file held
  have hread := given_of_isFile hfile hgiven
  obtain ⟨contents, hloaded⟩ := exists_loaded hfile (hexisting _ (mem_sourceNames _ (Or.inr rfl)))
  obtain ⟨before, rfl⟩ := settings_of_loaded (hkind project) hloaded
  have hbefore := (loaded_eq_ok_iff (hkind project) hread hamends.parse).mp hloaded
  obtain ⟨q, bytes, b, hleads⟩ := Act.isFile_fst_eq_true.mp hfile
  obtain rfl : q = target := hleads.aims.1.inj haims
  -- the file has the table, and says the same of the license
  obtain ⟨hsection, hothers⟩ := hlaws.data_addUnder (table?_starter license) hbefore hamends.add ht
  obtain ⟨u, hu, hvalues⟩ := (halike.follow ["tool".toList]).exists_table hsection
  have hsame (key : Text) : u.get? key = (startingTable license).get? key :=
    hvalues.get?_eq (get?_startingTable_ne_table license key)
  have hstates : projectLicense after = projectLicense before :=
    (projectLicense_alike halike).trans (projectLicense_congr (hothers _ (by decide)))
  obtain ⟨b', hknown⟩ := exists_isFile (read_sources h hnone _ (mem_sourceNames _ (Or.inr rfl)))
  have haims' := h.aims_child haims hknown
  refine ⟨tree, u, projectLicense after, htree, h.written hwritten, hsame, ?_, ?_, fun hopen => ?_⟩
  · rw [name_child]
    have hnothing := hexisting _ (mem_sourceNames _ (Or.inl rfl))
    exact firstIn_project hwritten haims (not_aims_own hleads hnothing) hnothing hparse hu
  · rw [name_child]
    have hnothing := read_sources h hnone _ (mem_sourceNames _ (Or.inl rfl))
    exact firstIn_project hwritten haims' (not_aims_own hleads hnothing) hnothing hparse hu
  · obtain ⟨rfl, hunlicensed⟩ := detectLicense_unknown h hlicense hopen
    have hsays : projectLicense before = none := by
      have hleads' := haims'.leadsTo hleads.aims.2
      have hread' := (readText_congr hleads hleads').trans hread
      have hloaded' := (loaded_eq_ok_iff (hkind _) hread' hamends.parse).mpr hbefore
      have hunlicensed := hunlicensed _ (mem_manifests place)
      rw [licenseIn_of_loaded (Act.isFile_fst_eq_true.mpr ⟨q, bytes, b, hleads'⟩) hloaded']
        at hunlicensed
      exact Except.ok.inj hunlicensed
    refine ⟨hstates.trans hsays, detectLicense_written hwritten h.ofPlace hunlicensed hparse
      (hstates.trans hsays) fun r hr hmanifest hq => ?_⟩
    exact hjson rfl r hr hmanifest q haims hq text d d' s hgiven (hkeys.symm ▸ hamends)

end Once
end Project

section Licensed
open scoped Toml.Plain

local instance : Limits := Backend.instLimits

def licensed : Workspace where
  tree :=
    .dir [("package.json".toList, .file (Utf8.encode "\x7b\"license\": \"MIT\"\x7d".toList) false),
      ("app".toList, .dir [])]
  cwd := ["app".toList]
  year := 2025
  git := fun _ _ => .unavailable

def here : Path := ⟨[], []⟩

def startingText : Text :=
  "width = 100\nmax_contributors = 3\ncontributor_selection = \"commits\"\n".toList ++
    "spdx_license = \"MIT\"\nlicense_url = \"https://opensource.org/licenses/MIT\"\n".toList

theorem eq_of_scalar {v v' : Value} (hinteger : v.asInteger? = v'.asInteger?)
    (htext : asText? v = asText? v') (hscalar : v'.asInteger?.isSome ∨ (asText? v').isSome) :
    v = v' := by
  have integer_of {v : Value} {n : Int} (h : v.asInteger? = some n) : v = .integer n := by
    unfold Value.asInteger? at h
    split at h <;> cases h
    rfl
  have text_of {v : Value} {s : Text} (h : asText? v = some s) : v = .text s := by
    unfold asText? at h
    split at h <;> cases h
    rfl
  rcases hscalar with hscalar | hscalar
  · obtain ⟨n, hn⟩ := Option.isSome_iff_exists.mp hscalar
    rw [integer_of hn, integer_of (hinteger.trans hn)]
  · obtain ⟨s, hs⟩ := Option.isSome_iff_exists.mp hscalar
    rw [text_of hs, text_of (htext.trans hs)]

theorem eq_of_scalars {t t' : Table} (hsame : t.map (fun e => (e.1, e.2.asInteger?, asText? e.2)) =
      t'.map fun e => (e.1, e.2.asInteger?, asText? e.2))
    (hscalar : ∀ e ∈ t', e.2.asInteger?.isSome ∨ (asText? e.2).isSome) : t = t' := by
  induction t generalizing t' with
  | nil => simpa using hsame.symm
  | cons e t ih =>
    cases t' with
    | nil => simp at hsame
    | cons e' t' =>
      rw [List.forall_mem_cons] at hscalar
      rw [List.map_cons, List.map_cons, List.cons.injEq, Prod.mk.injEq, Prod.mk.injEq] at hsame
      obtain ⟨⟨hkey, hinteger, htext⟩, hrest⟩ := hsame
      rw [ih hrest hscalar.2, Prod.ext hkey (eq_of_scalar hinteger htext hscalar.1)]

theorem parse_startingText :
    Toml.parse (Source.normalize startingText) = .ok (startingTable (some "MIT".toList)) := by
  have hread : (Toml.parse (Source.normalize startingText)).toOption.map (fun t =>
      t.map fun e => (e.1, e.2.asInteger?, asText? e.2)) =
      some ((startingTable (some "MIT".toList)).map fun e =>
        (e.1, e.2.asInteger?, asText? e.2)) := by
    decide +kernel
  rcases hparse : Toml.parse (Source.normalize startingText) with e | t
  · rw [hparse] at hread
    cases hread
  · rw [hparse] at hread
    exact congrArg _ (eq_of_scalars (Option.some.inj hread) (by decide +kernel))

theorem isReadBack_licensed :
    IsReadBack (here.child fileName) (starter (some (Points.ofText "MIT".toList))) licensed := by
  intro text d d' s hgiven hamends
  have hempty : (given (here.child fileName) licensed).1 = .ok [] := by cbv
  obtain rfl : [] = text := Except.ok.inj (hempty.symm.trans hgiven)
  have hparse : Toml.parse [] = .ok [] := by cbv
  have hnone : ([] : Table) = d := by
    have hd : Toml.parse [] = .ok d := by rw [Toml.parse, hamends.parse]; rfl
    exact Except.ok.inj (hparse.symm.trans hd)
  subst hnone
  have hkeys : keysIn (here.child fileName) = [] := by rw [keysIn, if_neg (by decide)]
  rw [hkeys] at hamends
  have hadd : Toml.Document.add ([] : Table) [] (starter (some (Points.ofText "MIT".toList))) =
      .ok (startingTable (some "MIT".toList)) := by
    cbv
  obtain rfl : startingTable (some "MIT".toList) = d' := Except.ok.inj (hadd.symm.trans hamends.add)
  have htext : Toml.Plain.text (startingTable (some "MIT".toList)) =
      .ok (Points.ofText startingText) := by cbv
  have hs : startingText = s := by
    have hpoints := Except.ok.inj (htext.symm.trans hamends.text)
    simpa using congrArg Points.chars hpoints
  subst hs
  exact ⟨_, _, rfl, parse_startingText, .refl _⟩

end Licensed

end Masthead.Config
