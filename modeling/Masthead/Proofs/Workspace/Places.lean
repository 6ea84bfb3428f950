import Masthead.Discovery
import Masthead.Workspace.Change
import Masthead.Proofs.Text.Lines
import Masthead.Proofs.Workspace.Tree
import Masthead.Proofs.Workspace.Ways

/-! Where names lead. In a tree without links a path leads where its names say, and to no other
place. So a file is found again under the path it is reported under, and two files are never
reported under the same path. -/

namespace Masthead

namespace Path

def IsPart (s : Text) : Prop := s ≠ [] ∧ s ≠ ['.'] ∧ '/' ∉ s

instance (s : Text) : Decidable (IsPart s) := inferInstanceAs (Decidable (_ ∧ _))

theorem isPart_of_mem_ofText {s part : Text} (h : part ∈ (ofText s).parts) : IsPart part := by
  obtain ⟨hpart, hkept⟩ := List.mem_filter.mp h
  obtain ⟨hempty, hdot⟩ := of_decide_eq_true hkept
  exact ⟨hempty, hdot, Text.not_mem_of_mem_splitOn hpart⟩

theorem ofText_text {parts : List Text} (h : ∀ part ∈ parts, IsPart part) :
    ofText (text ⟨[], parts⟩) = ⟨[], parts⟩ := by
  cases parts with
  | nil => rfl
  | cons part parts =>
    have htext : text ⟨[], part :: parts⟩ = Text.join ['/'] (part :: parts) := rfl
    have hsplit : Text.splitOn '/' (Text.join ['/'] (part :: parts)) = part :: parts := by
      rw [Text.splitOn_eq]
      exact List.splitOn_intercalate '/' (fun l hl => (h l hl).2.2) (by simp)
    have hkept : (part :: parts).filter (fun part => decide (part ≠ [] ∧ part ≠ ['.'])) =
        part :: parts :=
      List.filter_eq_self.mpr fun l hl => decide_eq_true ⟨(h l hl).1, (h l hl).2.1⟩
    have hroot : rootOf (Text.join ['/'] (part :: parts)) = [] := by
      obtain ⟨hempty, -, hslash⟩ := h part List.mem_cons_self
      obtain ⟨c, rest, rfl⟩ := List.exists_cons_of_ne_nil hempty
      have hc : c ≠ '/' := fun heq => hslash (heq ▸ List.mem_cons_self)
      have hfront : ∃ t, Text.join ['/'] ((c :: rest) :: parts) = c :: t := by
        cases parts <;> exact ⟨_, by simp [Text.join, List.intercalate]; rfl⟩
      obtain ⟨t, ht⟩ := hfront
      rw [ht, rootOf]
      all_goals simp [hc]
    rw [htext, ofText, hsplit, hkept, hroot]

theorem text_ne_nil {parts : List Text} (h : ∀ part ∈ parts, IsPart part) :
    text ⟨[], parts⟩ ≠ [] := by
  intro hempty
  have hread := ofText_text h
  rw [hempty] at hread
  obtain rfl : [] = parts := congrArg Path.parts hread
  cases hempty

end Path

namespace Tree

def IsName (s : Text) : Prop := Path.IsPart s ∧ isUp s = false

instance (s : Text) : Decidable (IsName s) := inferInstanceAs (Decidable (_ ∧ _))

mutual

def IsNamed : Tree → Prop
  | .file .. => True
  | .dir es => IsNamedIn es
  | .link _ => True

def IsNamedIn : List (Text × Tree) → Prop
  | [] => True
  | (name, t) :: es => IsName name ∧ IsNamed t ∧ IsNamedIn es

end

/-! Going along names -/

def advance (here : Place) (name : Text) : Place :=
  if isUp name then here.dropLast else here ++ [name]

def walk (here : Place) (names : List Text) : Place := names.foldl advance here

section Walk
variable {here base place names : Place}

theorem walk_cons (here : Place) (name : Text) (names : List Text) :
    walk here (name :: names) = walk (advance here name) names := rfl

theorem walk_append (here : Place) (names more : List Text) :
    walk here (names ++ more) = walk (walk here names) more := List.foldl_append

theorem advance_name {name : Text} (h : isUp name = false) (here : Place) :
    advance here name = here ++ [name] := by
  rw [advance, if_neg (by simp [h])]

theorem walk_names (h : ∀ name ∈ names, isUp name = false) (here : Place) :
    walk here names = here ++ names := by
  induction names generalizing here with
  | nil => exact (List.append_nil here).symm
  | cons name names ih =>
    rw [List.forall_mem_cons] at h
    rw [walk_cons, advance_name h.1, ih h.2, List.append_assoc, List.singleton_append]

theorem walk_up (here names : Place) :
    walk (here ++ names) (List.replicate names.length ['.', '.']) = here := by
  induction names using List.reverseRecOn with
  | nil => exact List.append_nil here
  | append_singleton names name ih =>
    have hup : advance (here ++ (names ++ [name])) ['.', '.'] = here ++ names := by
      rw [advance, if_pos (show isUp ['.', '.'] = true from rfl), ← List.append_assoc,
        List.dropLast_concat]
    rw [List.length_append, List.length_singleton, List.replicate_succ, walk_cons, hup, ih]

/-- The way from one place to another leads there. -/
theorem walk_way (h : ∀ name ∈ place, isUp name = false) (here : Place) :
    walk (here ++ base) (Discovery.way base place) = here ++ place := by
  induction base generalizing here place with
  | nil => simpa [Discovery.way] using walk_names h here
  | cons b base ih =>
    cases place with
    | nil => simpa [Discovery.way] using walk_up here (b :: base)
    | cons p place =>
      rw [Discovery.way]
      split_ifs with hb
      · -- a name in common is not gone back over
        subst hb
        rw [List.forall_mem_cons] at h
        simpa using ih h.2 (here ++ [b])
      · have hback := walk_up here (b :: base)
        rw [List.length_cons] at hback
        rw [walk_append, hback, walk_names h]

end Walk

/-! Trees without links -/

def Linkless (t : Tree) : Prop := ∀ place target, t.at? place ≠ some (.link target)

section Linkless
variable {t t' : Tree}

theorem linkCount_of_mem {es : List (Text × Tree)} (h : linkCountIn es = 0) {e : Text × Tree}
    (he : e ∈ es) :
    e.2.linkCount = 0 := by
  induction es with
  | nil => cases he
  | cons f es ih =>
    rw [linkCountIn] at h
    rcases List.mem_cons.mp he with rfl | he
    · omega
    · exact ih (by omega) he

theorem linkCount_child? (h : t.linkCount = 0) {name : Text} {c : Tree}
    (hc : t.child? name = some c) :
    c.linkCount = 0 := by
  obtain ⟨es, rfl⟩ := exists_dir_of_child? hc
  obtain ⟨e, he, rfl⟩ := Option.map_eq_some_iff.mp hc
  rw [linkCount] at h
  exact linkCount_of_mem h (List.mem_of_find?_eq_some he)

theorem linkless_of_linkCount (h : t.linkCount = 0) : Linkless t := by
  intro place target hat
  induction place generalizing t with
  | nil =>
    obtain rfl := Option.some.inj hat
    cases h
  | cons name place ih =>
    obtain ⟨c, hc, hcat⟩ := at?_cons_eq_some hat
    exact ih (linkCount_child? h hc) hcat

theorem Alike.linkless (h : Alike t t') (ht : Linkless t) : Linkless t' :=
  fun place target hat => ht place target (Alike.link (fun q => (h q).symm) hat)

theorem Linkless.follow_eq (ht : Linkless t) {links : Nat} {here : Place} {names : List Text}
    {place : Place} (h : t.follow links here names = .ok place) : place = walk here names := by
  rw [follow_eq_ok_iff] at h
  induction h with
  | done => rfl
  | up hup _ ih => rw [walk_cons, advance, if_pos hup, ih]
  | dir hup _ _ _ ih => rw [walk_cons, advance_name hup, ih]
  | link _ _ hat => exact absurd hat (ht _ _)
  | last hup => exact (advance_name hup _).symm

theorem Linkless.find_eq (ht : Linkless t) {here : Place} {names : List Text} {place : Place}
    {u : Option Tree} (h : t.find here names = .ok (place, u)) :
    place = walk here names ∧ t.at? place = u := by
  obtain ⟨hway, hat⟩ := find_eq_ok_iff.mp h
  exact ⟨ht.follow_eq hway, hat⟩

end Linkless
end Tree

/-! The paths that files are reported under -/

namespace Discovery
open Masthead.Tree (Place IsName isUp walk)
variable {base place place' : Place}

theorem collapse_names (h : ∀ name ∈ place, isUp name = false) : Tree.collapse place = place := by
  have hback (before : List Text) :
      place.foldl (fun (before : List Text) name => if isUp name then before.tail else name ::
        before) before =
        place.reverse ++ before := by
    induction place generalizing before with
    | nil => rfl
    | cons name place ih =>
      rw [List.forall_mem_cons] at h
      rw [List.foldl_cons, if_neg (by simp [h.1]), ih h.2]
      simp
  rw [Tree.collapse, hback, List.append_nil, List.reverse_reverse]

theorem mem_way {name : Text} (h : name ∈ way base place) : name = ['.', '.'] ∨ name ∈ place := by
  fun_induction way base place with
  | case1 base p place ih => exact (ih h).imp_right (List.mem_cons_of_mem p)
  | case2 b base p place hb => exact (List.mem_append.mp h).imp_left List.eq_of_mem_replicate
  | case3 base place hnot => exact (List.mem_append.mp h).imp_left List.eq_of_mem_replicate

def relative (base names : Place) : List Text :=
  if base.isPrefixOf names then names.drop base.length else way base names

theorem mem_relative {name : Text} (h : name ∈ relative base place) :
    name = ['.', '.'] ∨ name ∈ place := by
  rw [relative] at h
  split_ifs at h
  · exact Or.inr (List.mem_of_mem_drop h)
  · exact mem_way h

theorem walk_relative (h : ∀ name ∈ place, isUp name = false) :
    walk base (relative base place) = place := by
  rw [relative]
  split_ifs with hbase
  · obtain ⟨rest, rfl⟩ := List.isPrefixOf_iff_prefix.mp hbase
    rw [List.drop_left, Tree.walk_names fun name hname => h name (List.mem_append_right base hname)]
  · have hway : walk ([] ++ base) (way base place) = [] ++ place := Tree.walk_way h []
    exact hway

theorem isPart_of_mem_relative (h : ∀ name ∈ place, IsName name) {part : Text}
    (hpart : part ∈ relative base place) : Path.IsPart part := by
  rcases mem_relative hpart with rfl | hmem
  · decide
  · exact (h part hmem).1

theorem reported_eq (h : ∀ name ∈ place, IsName name) :
    reported base place = Path.text ⟨[], relative base place⟩ := by
  rw [reported, collapse_names fun name hname => (h name hname).2]
  rfl

theorem ofText_reported (h : ∀ name ∈ place, IsName name) :
    Path.ofText (reported base place) = ⟨[], relative base place⟩ := by
  rw [reported_eq h]
  exact Path.ofText_text fun part => isPart_of_mem_relative h

theorem reported_ne_nil (h : ∀ name ∈ place, IsName name) : reported base place ≠ [] := by
  rw [reported_eq h]
  exact Path.text_ne_nil fun part => isPart_of_mem_relative h

end Discovery
end Masthead
