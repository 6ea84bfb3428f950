import Masthead.Proofs.Config.Faults
import Masthead.Proofs.Config.Starter
import Masthead.Proofs.Source.Newlines
import Masthead.Proofs.Text.Utf8
import Masthead.Proofs.Workspace.Writing

/-! Reading configuration files again after one of them has been written. What does not lead to this
file holds what it held before, and the search starts in the same directory. -/

namespace Masthead.Config
open Act (Looks LeadsTo Aims)

/-! What a file holds hangs on its bytes -/

section Reading
variable {p : Path} {w w' : Workspace} {place q q' : Tree.Place} {bytes new : List UInt8}
  {b b' required : Bool}

theorem readText_congr {p' : Path} (h : LeadsTo p w q bytes b) (h' : LeadsTo p' w' q' bytes b') :
    (readText p' w').1 = (readText p w).1 := by
  rw [readText_eq h, readText_eq h', h.readText, h'.readText]

variable [Limits] [Toml.Library]

def understood (p : Path) (s : Text) : Except Fault Contents :=
  if isManifest p then
    ((Json.parse s).mapError (jsonFault p)).map fun
      | .object o => .manifest o
      | _ => .manifest []
  else ((Toml.parse s).mapError (tomlFault p)).map .settings

theorem loaded_fst (p : Path) (w : Workspace) :
    (loaded p w).1 = (readText p w).1.bind (understood p) := by
  rw [loaded]
  split_ifs with hmanifest
  · rw [(looks_loadJson p).bind_fst, loadJson, (looks_readText p).bind_fst]
    cases (readText p w).1 with
    | error e => rfl
    | ok s =>
      change (((Act.ofExcept (jsonFault p) (Json.parse s) >>= _) w).1.bind _) = understood p s
      rw [understood, if_pos hmanifest]
      rcases Json.parse s with e | v
      · rfl
      · cases v <;> rfl
  · rw [(looks_loadToml p).bind_fst, loadToml, (looks_readText p).bind_fst]
    cases (readText p w).1 with
    | error e => rfl
    | ok s =>
      change ((Act.ofExcept (tomlFault p) (Toml.parse s) w).1.bind _) = understood p s
      rw [understood, if_neg hmanifest]
      rcases Toml.parse s with e | t <;> rfl

theorem read_fst (p : Path) (required : Bool) (w : Workspace) :
    (read p required w).1 = (Act.isFile p w).1.bind fun isFile =>
      if isFile then (loaded p w).1.map (·.found? p required)
      else if required then .error (.config (.absent p.text)) else .ok none := by
  rw [read, (Act.looks_isFile p).bind_fst]
  refine congrArg (Act.isFile p w).1.bind (funext fun isFile => ?_)
  split_ifs
  · rw [(looks_loaded p).bind_fst]
    cases (loaded p w).1 <;> rfl
  · rfl
  · rfl

theorem licenseIn_fst (p : Path) (w : Workspace) :
    (licenseIn p w).1 = (Act.isFile p w).1.bind fun isFile =>
      if isFile then
        match (loaded p w).1 with
        | .ok contents => .ok contents.license?
        | .error (.config _) => .ok none
        | .error e => .error e
      else .ok none := by
  rw [licenseIn, (Act.looks_isFile p).bind_fst]
  refine congrArg (Act.isFile p w).1.bind (funext fun isFile => ?_)
  split_ifs
  · rw [bind_of_ok _ (Act.attempt_apply _ _), (looks_loaded p).still]
    rcases (loaded p w).1 with e | data
    · cases e <;> rfl
    · rfl
  · rfl

theorem settings_of_loaded {contents : Contents} (hkind : isManifest p = false)
    (h : (loaded p w).1 = .ok contents) :
    ∃ t, contents = .settings t := by
  rw [loaded_fst] at h
  obtain ⟨s, -, hs⟩ := exists_of_bind_eq_ok h
  rw [understood, if_neg (by simp [hkind])] at hs
  obtain ⟨t, -, rfl⟩ := exists_of_map_eq_ok hs
  exact ⟨t, rfl⟩

theorem loaded_congr (h : LeadsTo p w q bytes b) (h' : LeadsTo p w' q' bytes b') :
    (loaded p w').1 = (loaded p w).1 := by
  rw [loaded_fst, loaded_fst, readText_congr h h']

section Written
variable (hw : w.Written place new w')
include hw

theorem loaded_written (hplace : ¬ Aims p w place) (hfile : (Act.isFile p w).1 = .ok true) :
    (loaded p w').1 = (loaded p w).1 := by
  obtain ⟨q, bytes, b, h⟩ := Act.isFile_fst_eq_true.mp hfile
  exact loaded_congr h (h.written hw hplace)

theorem read_written (hplace : ¬ Aims p w place) :
    (read p required w').1 = (read p required w).1 := by
  rw [read_fst, read_fst, Act.isFile_written hw hplace]
  rcases hfile : (Act.isFile p w).1 with e | _ | _
  · rfl
  · rfl
  · rw [loaded_written hw hplace hfile]

theorem licenseIn_written (hplace : ¬ Aims p w place) : (licenseIn p w').1 = (licenseIn p w).1 := by
  rw [licenseIn_fst, licenseIn_fst, Act.isFile_written hw hplace]
  rcases hfile : (Act.isFile p w).1 with e | _ | _
  · rfl
  · rfl
  · rw [loaded_written hw hplace hfile]

end Written

theorem loaded_of_encode {s : Text} (h : LeadsTo p w q (Utf8.encode s) b) :
    (loaded p w).1 = understood p (Source.normalize s) := by
  rw [loaded_fst, readText_eq h, h.readText, Utf8.decode_encode]
  rfl

end Reading

theorem license?_ne_nil {contents : Contents} {s : Points} (h : contents.license? = some s) :
    s ≠ [] := by
  have hnonEmpty {v : Points} (h : nonEmpty? v = some s) : s ≠ [] := by
    rintro rfl
    rw [nonEmpty?] at h
    split_ifs at h with hempty
    obtain rfl := Option.some.inj h
    exact hempty rfl
  cases contents with
  | manifest o =>
    rw [Contents.license?, manifestLicense] at h
    split at h <;> first | exact hnonEmpty h | cases h
  | settings t =>
    rw [Contents.license?, projectLicense] at h
    split at h
    · exact hnonEmpty h
    · split at h <;> first | exact hnonEmpty h | cases h
    · cases h

section Holding
variable [Limits] [Toml.Library] {p : Path} {w : Workspace} {required : Bool}

theorem isFile_of_read_eq_none (hkind : isManifest p = false) (hname : p.name ≠ projectFileName)
    (h : (read p false w).1 = .ok none) : (Act.isFile p w).1 = .ok false := by
  rw [read_fst] at h
  rcases hfile : (Act.isFile p w).1 with e | _ | _
  · rw [hfile] at h
    cases h
  · rfl
  · rw [hfile] at h
    obtain ⟨contents, hcontents, hfound⟩ := exists_of_map_eq_ok h
    obtain ⟨t, rfl⟩ := settings_of_loaded hkind hcontents
    rw [Contents.found?, if_neg hname] at hfound
    cases hfound

theorem exists_isFile {found : Option Found} (h : (read p required w).1 = .ok found) :
    ∃ b, (Act.isFile p w).1 = .ok b := by
  rw [read_fst] at h
  rcases hfile : (Act.isFile p w).1 with e | b
  · rw [hfile] at h
    cases h
  · exact ⟨b, rfl⟩

theorem exists_loaded {found : Option Found} (hfile : (Act.isFile p w).1 = .ok true)
    (h : (read p required w).1 = .ok found) : ∃ contents, (loaded p w).1 = .ok contents := by
  rw [read_fst, hfile] at h
  obtain ⟨contents, hcontents, -⟩ := exists_of_map_eq_ok h
  exact ⟨contents, hcontents⟩

theorem licenseIn_ne_nil {s : Points} (h : (licenseIn p w).1 = .ok (some s)) : s ≠ [] := by
  rw [licenseIn_fst] at h
  rcases hfile : (Act.isFile p w).1 with e | _ | _
  · rw [hfile] at h
    cases h
  · rw [hfile] at h
    cases h
  · rw [hfile] at h
    rcases hloaded : (loaded p w).1 with e | contents
    · rw [hloaded] at h
      cases e <;> cases h
    · rw [hloaded] at h
      exact license?_ne_nil (Except.ok.inj h)

end Holding

/-! Searching again -/

section Searching
variable {α β : Type} {x : α → Act (Option β)} {l : List α} {w : Workspace}

theorem search_fst_eq_none (hx : ∀ a, Looks (x a)) :
    (search x l w).1 = .ok none ↔ ∀ a ∈ l, (x a w).1 = .ok none := by
  induction l with
  | nil => simp [search]; rfl
  | cons a l ih =>
    rw [search, (hx a).bind_fst_eq_ok, List.forall_mem_cons, ← ih]
    constructor
    · rintro ⟨_ | b, ha, hrest⟩
      · exact ⟨ha, hrest⟩
      · cases hrest
    · rintro ⟨ha, hrest⟩
      exact ⟨none, ha, hrest⟩

theorem exists_of_search_eq_some (hx : ∀ a, Looks (x a)) {b : β}
    (h : (search x l w).1 = .ok (some b)) :
    ∃ a ∈ l, (x a w).1 = .ok (some b) := by
  induction l with
  | nil => cases h
  | cons a l ih =>
    rw [search, (hx a).bind_fst_eq_ok] at h
    obtain ⟨_ | b', ha, hrest⟩ := h
    · obtain ⟨c, hc, hfound⟩ := ih hrest
      exact ⟨c, List.mem_cons_of_mem _ hc, hfound⟩
    · cases hrest
      exact ⟨a, List.mem_cons_self, ha⟩

end Searching

/-! Where a search starts -/

section Start
variable {p : Path} {w w' : Workspace} {place q : Tree.Place} {new : List UInt8}

structure IsAt (p : Path) (w : Workspace) (place : Tree.Place) : Prop where
  start : Tree.Stands w.tree (Act.start p w)
  aims : Aims p w place
  stands : Tree.Stands w.tree place
  valid : (Act.ofPlace place).hasNull = false
  short : ¬ Act.pathLimit < Tree.byteCount (Act.ofPlace place).text

theorem IsAt.start_child (h : IsAt p w place) (name : Text) :
    Tree.Stands w.tree (Act.start (p.child name) w) := h.start

theorem IsAt.written (h : IsAt p w place) (hw : w.Written q new w') : IsAt p w' place := by
  refine ⟨?_, (Act.aims_written hw).mpr h.aims, hw.tree.stands h.stands, h.valid, h.short⟩
  rw [Act.start_written hw]
  exact hw.tree.stands h.start

theorem aims_ofPlace (hstands : Tree.Stands w.tree place)
    (hvalid : (Act.ofPlace place).hasNull = false)
    (hshort : ¬ Act.pathLimit < Tree.byteCount (Act.ofPlace place).text) :
    Aims (Act.ofPlace place) w place :=
  ⟨hvalid, hshort, hstands.follow_eq _⟩

theorem IsAt.ofPlace (h : IsAt p w place) : IsAt (Act.ofPlace place) w place :=
  ⟨.top h.stands.isDir, aims_ofPlace h.stands h.valid h.short, h.stands, h.valid, h.short⟩

theorem IsAt.resolve_fst (h : IsAt p w place) : (Act.resolve p w).1 = .ok (Act.ofPlace place) := by
  have hfind : (Act.find (Act.ofPlace place) w).1 = .ok (.ok (place, w.tree.at? place)) := by
    rw [Act.find_eq, if_neg (by simp [h.valid]), if_neg h.short, Tree.find]
    exact congrArg (fun r => Except.ok (Except.map _ r)) (h.stands.follow_eq _)
  rw [Act.resolve_fst, if_neg (by simp [h.aims.valid]), h.start.real_eq h.aims.way, hfind]

theorem IsAt.startDirectory_fst (h : IsAt p w place) : (startDirectory p w).1 = .ok place := by
  obtain ⟨es, hdir⟩ := h.stands.exists_dir
  have hfile : (Act.isFile (Act.ofPlace place) w).1 = .ok false := by
    rw [Act.isFile_fst, (aims_ofPlace h.stands h.valid h.short).seen_eq, hdir]
    rfl
  rw [startDirectory, (Act.looks_resolve p).bind_fst, h.resolve_fst]
  change ((Act.isFile (Act.ofPlace place) >>= _) w).1 = _
  rw [(Act.looks_isFile _).bind_fst, hfile]
  rfl

theorem IsAt.discover_fst [Limits] [Toml.Library] (h : IsAt p w place) :
    (discover p w).1 = (search (fun q => read q false) (sources place) w).1 := by
  rw [discover, (looks_startDirectory p).bind_fst, h.startDirectory_fst]
  change (firstAmong _ w).1 = _
  rw [firstAmong_eq, sources]

theorem IsAt.detectLicense_fst [Limits] [Toml.Library] (h : IsAt p w place) :
    (detectLicense p w).1 = (search licenseIn (manifests place) w).1 := by
  rw [detectLicense, (looks_startDirectory p).bind_fst, h.startDirectory_fst]
  change (licenseAmong _ w).1 = _
  rw [licenseAmong_eq, manifests]

theorem exists_upwards (place : Tree.Place) :
    ∃ above, upwards place = Act.ofPlace place :: above := by
  rw [upwards, List.range_succ_eq_map, List.map_cons, Nat.sub_zero, List.take_length]
  exact ⟨_, rfl⟩

theorem short_of_isFile {b : Bool} (hvalid : p.hasNull = false) (h : (Act.isFile p w).1 = .ok b) :
    ¬ Act.pathLimit < Tree.byteCount p.text := by
  intro hlong
  rw [Act.isFile_fst, Act.seen, if_neg (by simp [hvalid]), if_pos hlong] at h
  cases h

theorem IsAt.aims_child {name : Text} {b : Bool} (h : IsAt p w place)
    (haims : Aims (p.child name) w q)
    (hfile : (Act.isFile ((Act.ofPlace place).child name) w).1 = .ok b) :
    Aims ((Act.ofPlace place).child name) w q := by
  have hvalid : ((Act.ofPlace place).child name).hasNull = false := by
    have hname := haims.valid
    have hplace := h.valid
    simp only [Path.hasNull, Path.child, List.any_append, Bool.or_eq_false_iff] at hname hplace ⊢
    exact ⟨hplace, hname.2⟩
  refine ⟨hvalid, short_of_isFile hvalid hfile, ?_⟩
  obtain ⟨links, here, hlinks, hway, hrest⟩ := Tree.follow_through haims.way
  obtain rfl : place = here := Except.ok.inj (h.aims.way.symm.trans hway)
  exact (h.stands.follow_append _ _).trans (Tree.follow_mono hrest hlinks)

theorem exists_sources (place : Tree.Place) :
    ∃ above, sources place = sourceNames.map (Act.ofPlace place).child ++ above := by
  obtain ⟨above, habove⟩ := exists_upwards place
  rw [sources, habove, List.flatMap_cons]
  exact ⟨_, rfl⟩

theorem mem_manifests (place : Tree.Place) :
    (Act.ofPlace place).child projectFileName ∈ manifests place := by
  obtain ⟨above, habove⟩ := exists_upwards place
  rw [manifests, habove, List.flatMap_cons]
  exact List.mem_append_left _ List.mem_cons_self

end Start
end Masthead.Config
