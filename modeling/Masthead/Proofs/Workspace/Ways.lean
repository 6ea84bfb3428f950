import Masthead.Workspace.Tree

/-! Ways through a tree. A way that comes to an end does so step by step, each of them up, into a
directory or along a link, and ends where it started, at a file, or at a name that nothing has
yet. -/

namespace Masthead.Tree
variable {t : Tree} {place here : Place} {way more names : List Text} {name : Text}
  {links links' : Nat}

/-- A way along names from a place to another one, with a number of links that may be followed on
it. -/
inductive Way (t : Tree) : Nat → Place → List Text → Place → Prop
  | done (links : Nat) (here : Place) : Way t links here [] here
  | up {links : Nat} {here place : Place} {name : Text} {names : List Text} (hup : isUp name = true)
      (h : Way t links here.dropLast names place) : Way t links here (name :: names) place
  | dir {links : Nat} {here place : Place} {name : Text} {names : List Text}
      {es : List (Text × Tree)}
      (hup : isUp name = false) (hshort : ¬ nameLimit < byteCount name)
      (hat : t.at? (here ++ [name]) = some (.dir es))
      (h : Way t links (here ++ [name]) names place) : Way t links here (name :: names) place
  | link {links : Nat} {here place : Place} {name target : Text} {names : List Text}
      (hup : isUp name = false) (hshort : ¬ nameLimit < byteCount name)
      (hat : t.at? (here ++ [name]) = some (.link target))
      (h : Way t links (linkStart here target) (namesOf target ++ names) place) :
      Way t (links + 1) here (name :: names) place
  | last {links : Nat} {here : Place} {name : Text} (hup : isUp name = false)
      (hshort : ¬ nameLimit < byteCount name)
      (hat : t.at? (here ++ [name]) = none ∨ ∃ bytes b, t.at? (here ++ [name]) =
        some (.file bytes b)) :
      Way t links here [name] (here ++ [name])

theorem way_of_follow (h : t.follow links here names = .ok place) :
    Way t links here names place := by
  fun_induction follow t links here names with
  | case1 links here =>
    cases h
    exact .done links place
  | case2 links here name names hup ih => exact .up hup (ih h)
  | case3 | case5 | case8 | case10 => cases h
  | case4 links here name names hup hlong es hat ih =>
    exact .dir (by simpa using hup) hlong hat (ih h)
  | case6 here name names hup hlong target hat links ih =>
    exact .link (by simpa using hup) hlong hat (ih h)
  | case7 links here name names hup hlong bytes b hat hnames =>
    cases h
    obtain rfl := List.isEmpty_iff.mp hnames
    exact .last (by simpa using hup) hlong (Or.inr ⟨bytes, b, hat⟩)
  | case9 links here name names hup hlong hat hnames =>
    cases h
    obtain rfl := List.isEmpty_iff.mp hnames
    exact .last (by simpa using hup) hlong (Or.inl hat)

namespace Way

theorem follow_eq (h : Way t links here names place) : t.follow links here names = .ok place := by
  induction h with
  | done links here => rw [follow]
  | up hup _ ih => rw [follow, if_pos hup, ih]
  | dir hup hshort hat _ ih => rw [follow, if_neg (by simp [hup]), if_neg hshort, hat, ih]
  | link hup hshort hat _ ih =>
    rw [follow, if_neg (by simp [hup]), if_neg hshort, hat]
    exact ih
  | last hup hshort hat =>
    rw [follow, if_neg (by simp [hup]), if_neg hshort]
    obtain hnone | ⟨bytes, b, hfile⟩ := hat
    · rw [hnone]
      rfl
    · rw [hfile]
      rfl

theorem unique {place' : Place} (h : Way t links here names place)
    (h' : Way t links here names place') :
    place = place' :=
  Except.ok.inj (h.follow_eq.symm.trans h'.follow_eq)

theorem mono (h : Way t links here names place) (hle : links ≤ links') :
    Way t links' here names place := by
  induction h generalizing links' with
  | done _ here => exact .done links' here
  | up hup _ ih => exact .up hup (ih hle)
  | dir hup hshort hat _ ih => exact .dir hup hshort hat (ih hle)
  | link hup hshort hat _ ih =>
    obtain ⟨links', rfl⟩ := Nat.exists_eq_add_of_lt hle
    exact .link hup hshort hat (ih (by omega))
  | last hup hshort hat => exact .last hup hshort hat

theorem through (h : Way t links here (way ++ more) place) :
    ∃ links' here', links' ≤ links ∧ Way t links here way here' ∧
    Way t links' here' more place := by
  -- step by step; a link puts the names of its target in front of the way, and `way` grows by them
  generalize hnames : way ++ more = names at h
  induction h generalizing way with
  | done links here =>
    obtain ⟨rfl, rfl⟩ := List.append_eq_nil_iff.mp hnames
    exact ⟨links, here, Nat.le_refl _, .done links here, .done links here⟩
  | up hup h ih =>
    rcases List.append_eq_cons_iff.mp hnames with ⟨rfl, rfl⟩ | ⟨way, rfl, hrest⟩
    · exact ⟨_, _, Nat.le_refl _, .done _ _, .up hup h⟩
    · obtain ⟨links', here', hle, hway, hmore⟩ := ih hrest.symm
      exact ⟨links', here', hle, .up hup hway, hmore⟩
  | dir hup hshort hat h ih =>
    rcases List.append_eq_cons_iff.mp hnames with ⟨rfl, rfl⟩ | ⟨way, rfl, hrest⟩
    · exact ⟨_, _, Nat.le_refl _, .done _ _, .dir hup hshort hat h⟩
    · obtain ⟨links', here', hle, hway, hmore⟩ := ih hrest.symm
      exact ⟨links', here', hle, .dir hup hshort hat hway, hmore⟩
  | link hup hshort hat h ih =>
    rcases List.append_eq_cons_iff.mp hnames with ⟨rfl, rfl⟩ | ⟨way, rfl, hrest⟩
    · exact ⟨_, _, Nat.le_refl _, .done _ _, .link hup hshort hat h⟩
    · obtain ⟨links', here', hle, hway, hmore⟩ := ih (by rw [List.append_assoc, hrest])
      exact ⟨links', here', Nat.le_succ_of_le hle, .link hup hshort hat hway, hmore⟩
  | last hup hshort hat =>
    rcases List.append_eq_cons_iff.mp hnames with ⟨rfl, rfl⟩ | ⟨way, rfl, hrest⟩
    · exact ⟨_, _, Nat.le_refl _, .done _ _, .last hup hshort hat⟩
    · obtain ⟨rfl, rfl⟩ := List.append_eq_nil_iff.mp hrest.symm
      exact ⟨_, _, Nat.le_refl _, .last hup hshort hat, .done _ _⟩

end Way

theorem follow_eq_ok_iff : t.follow links here names = .ok place ↔ Way t links here names place :=
  ⟨way_of_follow, Way.follow_eq⟩

theorem follow_mono (h : t.follow links here names = .ok place) (hle : links ≤ links') :
    t.follow links' here names = .ok place :=
  ((way_of_follow h).mono hle).follow_eq

theorem follow_through (h : t.follow links here (way ++ more) = .ok place) :
    ∃ links' here', links' ≤ links ∧ t.follow links here way = .ok here' ∧
    t.follow links' here' more = .ok place := by
  obtain ⟨links', here', hle, hway, hmore⟩ := (way_of_follow h).through
  exact ⟨links', here', hle, hway.follow_eq, hmore.follow_eq⟩

end Masthead.Tree
