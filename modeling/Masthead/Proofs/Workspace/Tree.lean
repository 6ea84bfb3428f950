import Masthead.Workspace.Tree
import Masthead.Proofs.Chain

/-! Changing a file in a tree. Its bytes are new, and no path leads anywhere else than before. -/

namespace Masthead.Tree

section Entries
variable {es : List (Text × Tree)} {name : Text}

theorem child?_cons (n : Text) (t : Tree) (name : Text) :
    (dir ((n, t) :: es)).child? name = if n = name then some t else (dir es).child? name := by
  simp only [child?, entries, List.find?_cons]
  by_cases h : n = name <;> simp [h]

theorem child?_alterEntry {f : Option Tree → Option Tree} {t : Tree}
    (hf : f ((dir es).child? name) = some t) (n : Text) :
    (dir (alterEntry name f es)).child? n = if name = n then some t else (dir es).child? n := by
  induction es with
  | nil =>
    have hnone : f none = some t := hf
    simp only [alterEntry, hnone, Option.toList_some, List.map_cons, List.map_nil, child?_cons]
  | cons e es ih =>
    obtain ⟨m, u⟩ := e
    rw [child?_cons] at hf
    by_cases hm : m = name
    · rw [if_pos hm] at hf
      simp only [alterEntry, hm, if_true, hf, Option.toList_some, List.map_cons, List.map_nil,
        List.singleton_append, child?_cons]
      by_cases hn : name = n <;> simp [hn]
    · rw [if_neg hm] at hf
      simp only [alterEntry, if_neg hm, child?_cons, ih hf]
      by_cases hn : name = n
      · simp [← hn, hm]
      · simp [hn]

theorem child?_map (g : Tree → Tree) (n : Text) :
    (dir (es.map fun e => if e.1 = name then (e.1, g e.2) else e)).child? n =
      if name = n then ((dir es).child? n).map g else (dir es).child? n := by
  induction es with
  | nil => simp [child?, entries]
  | cons e es ih =>
    obtain ⟨m, u⟩ := e
    by_cases hm : m = name
    · simp only [List.map_cons, hm, if_true, child?_cons, ih]
      by_cases hn : name = n <;> simp [hn]
    · simp only [List.map_cons, if_neg hm, child?_cons, ih]
      by_cases hn : name = n
      · simp [← hn, hm]
      · simp [hn]

end Entries

section Files
variable {t : Tree} {place : Place} {u v : Tree} {f : Option Tree → Option Tree}

theorem exists_dir_of_child? {name : Text} {c : Tree} (h : t.child? name = some c) :
    ∃ es, t = dir es := by
  cases t with
  | dir es => exact ⟨es, rfl⟩
  | _ => simp [child?, entries] at h

theorem at?_cons_eq_some {name : Text} (h : t.at? (name :: place) = some u) :
    ∃ c, t.child? name = some c ∧ c.at? place = some u := by
  rw [at?] at h
  cases hc : t.child? name with
  | none => simp [hc] at h
  | some c => exact ⟨c, rfl, by simpa [hc] using h⟩

theorem child?_alter {name : Text} (h : t.at? (name :: place) = some u) (hf : f (some u) = some v)
    (n : Text) :
    (alter f (name :: place) t).child? n =
      if name = n then (t.child? n).map (alter f place) else t.child? n := by
  obtain ⟨c, hc, hu⟩ := at?_cons_eq_some h
  obtain ⟨es, rfl⟩ := exists_dir_of_child? hc
  cases place with
  | nil =>
    obtain rfl := Option.some.inj hu
    have hentry : f ((dir es).child? name) = some v := by rw [hc, hf]
    rw [alter, child?_alterEntry hentry]
    by_cases hn : name = n
    · subst hn
      simp [hc, alter, hf]
    · simp [hn]
  | cons m place =>
    rw [alter, child?_map]
    simp

theorem at?_alter (h : t.at? place = some u) (hf : f (some u) = some v) :
    (alter f place t).at? place = some v := by
  induction place generalizing t with
  | nil =>
    obtain rfl := Option.some.inj h
    simp [alter, hf, at?]
  | cons name place ih =>
    obtain ⟨c, hc, hu⟩ := at?_cons_eq_some h
    rw [at?, child?_alter h hf, if_pos rfl, hc]
    exact ih hu

inductive Outline where
  | file
  | dir
  | link (target : Text)

def outline : Tree → Outline
  | .file .. => .file
  | .dir _ => .dir
  | .link target => .link target

def Alike (t t' : Tree) : Prop := ∀ place, (t.at? place).map outline = (t'.at? place).map outline

theorem alike_alter (h : t.at? place = some u) (hf : f (some u) = some v) (huv : Alike v u) :
    Alike (alter f place t) t := by
  induction place generalizing t with
  | nil =>
    obtain rfl := Option.some.inj h
    simpa [alter, hf] using huv
  | cons name place ih =>
    obtain ⟨c, hc, hu⟩ := at?_cons_eq_some h
    obtain ⟨es, hes⟩ := exists_dir_of_child? hc
    intro q
    cases q with
    | nil =>
      subst hes
      cases place <;> rfl
    | cons n q =>
      rw [at?, at?, child?_alter h hf]
      by_cases hn : name = n
      · subst hn
        rw [if_pos rfl, hc]
        exact ih hu q
      · rw [if_neg hn]

theorem alike_file (new bytes : List UInt8) (b b' : Bool) : Alike (file new b) (file bytes b') := by
  intro place
  cases place with
  | nil => rfl
  | cons name place => rfl

section Alike
variable {t' : Tree}

theorem Alike.exists_at? (h : Alike t t') (ht : t.at? place = some u) :
    ∃ u', t'.at? place = some u' ∧ u'.outline = u.outline := by
  have hplace := h place
  rw [ht] at hplace
  exact Option.map_eq_some_iff.mp hplace.symm

theorem Alike.dir (h : Alike t t') {es : List (Text × Tree)} (ht : t.at? place = some (.dir es)) :
    ∃ es', t'.at? place = some (.dir es') := by
  obtain ⟨u', hu', houtline⟩ := h.exists_at? ht
  cases u' with
  | dir es' => exact ⟨es', hu'⟩
  | _ => cases houtline

theorem Alike.link (h : Alike t t') {target : Text} (ht : t.at? place = some (.link target)) :
    t'.at? place = some (.link target) := by
  obtain ⟨u', hu', houtline⟩ := h.exists_at? ht
  cases u' with
  | link target' =>
    cases houtline
    exact hu'
  | _ => cases houtline

theorem Alike.file (h : Alike t t') {bytes : List UInt8} {b : Bool}
    (ht : t.at? place = some (.file bytes b)) :
    ∃ bytes' b', t'.at? place = some (.file bytes' b') := by
  obtain ⟨u', hu', houtline⟩ := h.exists_at? ht
  cases u' with
  | file bytes' b' => exact ⟨bytes', b', hu'⟩
  | _ => cases houtline

theorem Alike.none (h : Alike t t') (ht : t.at? place = none) : t'.at? place = none := by
  have hplace := h place
  rw [ht] at hplace
  simpa using hplace.symm

theorem Alike.follow_eq (h : Alike t t') (links : Nat) (here : Place) (names : List Text) :
    t.follow links here names = t'.follow links here names := by
  fun_induction follow t links here names with
  | case1 => rw [follow]
  | case2 links here name names hup ih => rw [follow, if_pos hup, ih]
  | case3 links here name names hup hlong => rw [follow, if_neg hup, if_pos hlong]
  | case4 links here name names hup hlong es ht ih =>
    obtain ⟨es', ht'⟩ := h.dir ht
    rw [follow, if_neg hup, if_neg hlong, ht', ih]
  | case5 here name names hup hlong target ht =>
    rw [follow, if_neg hup, if_neg hlong, h.link ht]
  | case6 here name names hup hlong target ht links ih =>
    rw [follow, if_neg hup, if_neg hlong, h.link ht, ih]
  | case7 links here name names hup hlong bytes b ht hnames
  | case8 links here name names hup hlong bytes b ht hnames =>
    obtain ⟨bytes', b', ht'⟩ := h.file ht
    rw [follow, if_neg hup, if_neg hlong, ht']
    simp [hnames]
  | case9 links here name names hup hlong ht hnames
  | case10 links here name names hup hlong ht hnames =>
    rw [follow, if_neg hup, if_neg hlong, h.none ht]
    simp [hnames]

end Alike

theorem find_eq_ok_iff {here : Place} {names : List Text} {u : Option Tree} :
    t.find here names = .ok (place, u) ↔ t.follow linkLimit here names = .ok place ∧
    t.at? place = u := by
  constructor
  · intro h
    obtain ⟨q, hway, hq⟩ := exists_of_map_eq_ok h
    obtain ⟨rfl, hat⟩ := Prod.mk.inj hq
    exact ⟨hway, hat⟩
  · rintro ⟨hway, rfl⟩
    rw [find, hway, Except.map]

theorem find_alter {here : Place} {names : List Text} {bytes new : List UInt8} {b b' : Bool}
    (h : t.find here names = .ok (place, some (file bytes b)))
    (hf : f (some (file bytes b)) = some (file new b')) :
    (alter f place t).find here names = .ok (place, some (file new b')) := by
  obtain ⟨hway, hat⟩ := find_eq_ok_iff.mp h
  have halike := alike_alter hat hf (alike_file new bytes b' b)
  exact find_eq_ok_iff.mpr ⟨(halike.follow_eq ..).trans hway, at?_alter hat hf⟩

end Files

end Masthead.Tree
