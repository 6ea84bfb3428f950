import Masthead.Proofs.Workspace.Walking

/-! Ways through a tree with links. Where a way comes to an end, it does so with more links to
follow as well, and the place where it ends is the one that is known for it when all links are
resolved. -/

namespace Masthead.Tree
variable {t : Tree} {place here : Place} {way more names : List Text} {name : Text}
  {links links' n : Nat}

/-! Directories that a way goes through -/

inductive Stands (t : Tree) : Place → Prop
  | top (h : t.isDir = true) : Stands t []
  | child {place : Place} {name : Text} {es : List (Text × Tree)} (h : Stands t place)
      (hname : isUp name = false)
      (hshort : ¬ nameLimit < byteCount name) (hat : t.at? (place ++ [name]) = some (.dir es)) :
      Stands t (place ++ [name])

inductive Ends (t : Tree) : Place → Prop
  | dir {place : Place} (h : Stands t place) : Ends t place
  | entry {place : Place} {name : Text} (h : Stands t place) (hname : isUp name = false)
      (hshort : ¬ nameLimit < byteCount name)
      (hat : t.at? (place ++ [name]) = none ∨ ∃ bytes b, t.at? (place ++ [name]) =
        some (.file bytes b)) :
      Ends t (place ++ [name])

theorem Stands.isDir (h : Stands t place) : t.isDir = true := by
  induction h with
  | top h => exact h
  | child _ _ _ _ ih => exact ih

theorem Stands.dropLast (h : Stands t place) : Stands t place.dropLast := by
  cases h with
  | top h => exact .top h
  | child h _ _ _ =>
    rw [List.dropLast_concat]
    exact h

theorem Stands.exists_dir (h : Stands t place) : ∃ es, t.at? place = some (.dir es) := by
  cases h with
  | top h =>
    cases t with
    | dir es => exact ⟨es, rfl⟩
    | _ => cases h
  | child _ _ _ hat => exact ⟨_, hat⟩

theorem Stands.linkStart (h : Stands t here) (target : Text) :
    Stands t (Tree.linkStart here target) := by
  rw [Tree.linkStart]
  split_ifs
  · exact .top h.isDir
  · exact h

theorem Stands.not_isUp (h : Stands t place) : ∀ name ∈ place, isUp name = false := by
  induction h with
  | top _ => simp
  | child _ hname _ _ ih =>
    rw [List.forall_mem_append]
    exact ⟨ih, List.forall_mem_singleton.mpr hname⟩

theorem Ends.not_isUp (h : Ends t place) : ∀ name ∈ place, isUp name = false := by
  cases h with
  | dir h => exact h.not_isUp
  | entry h hname _ _ =>
    rw [List.forall_mem_append]
    exact ⟨h.not_isUp, List.forall_mem_singleton.mpr hname⟩

theorem Stands.follow_append (h : Stands t place) (links : Nat) (more : List Text) :
    t.follow links [] (place ++ more) = t.follow links place more := by
  induction h generalizing more with
  | top _ => rfl
  | child _ hname hshort hat ih =>
    rw [List.append_assoc, ih, List.singleton_append, follow, if_neg (by simp [hname]),
      if_neg hshort, hat]

theorem Stands.follow_eq (h : Stands t place) (links : Nat) :
    t.follow links [] place = .ok place := by
  have hway := h.follow_append links []
  rw [List.append_nil] at hway
  rw [hway, follow]

theorem Stands.ends (hhere : Stands t here) (h : t.follow links here names = .ok place) :
    Ends t place := by
  rw [follow_eq_ok_iff] at h
  induction h with
  | done => exact .dir hhere
  | up _ _ ih => exact ih hhere.dropLast
  | dir hup hshort hat _ ih => exact ih (hhere.child hup hshort hat)
  | link _ _ _ _ ih => exact ih (hhere.linkStart _)
  | last hup hshort hat => exact .entry hhere hup hshort hat

theorem Ends.stands {es : List (Text × Tree)} (h : Ends t place)
    (hat : t.at? place = some (.dir es)) :
    Stands t place := by
  cases h with
  | dir h => exact h
  | entry _ _ _ hentry =>
    rw [hat] at hentry
    obtain hnone | ⟨bytes, b, hfile⟩ := hentry
    · cases hnone
    · cases hfile

/-! Places where something can be written -/

inductive Lands (t : Tree) : Place → Prop
  | dir {place : Place} {es : List (Text × Tree)} (hat : t.at? place = some (.dir es)) :
      Lands t place
  | entry {place : Place} {name : Text} {es : List (Text × Tree)} (hparent : t.at? place =
      some (.dir es))
      (hat : t.at? (place ++ [name]) = none ∨ ∃ bytes b, t.at? (place ++ [name]) =
        some (.file bytes b)) :
      Lands t (place ++ [name])

theorem Ends.lands (h : Ends t place) : Lands t place := by
  cases h with
  | dir h =>
    obtain ⟨es, hat⟩ := h.exists_dir
    exact .dir hat
  | entry h _ _ hat =>
    obtain ⟨es, hparent⟩ := h.exists_dir
    exact .entry hparent hat

theorem exists_dir_of_at?_concat {u : Tree} (h : t.at? (here ++ [name]) = some u) :
    ∃ es, t.at? here = some (.dir es) := by
  rw [at?_append] at h
  obtain ⟨v, hv, hu⟩ := Option.bind_eq_some_iff.mp h
  obtain ⟨c, hc, -⟩ := at?_cons_eq_some hu
  obtain ⟨es, rfl⟩ := exists_dir_of_child? hc
  exact ⟨es, hv⟩

theorem exists_dir_dropLast {es : List (Text × Tree)} (h : t.at? here = some (.dir es)) :
    ∃ es, t.at? here.dropLast = some (.dir es) := by
  rcases List.eq_nil_or_concat' here with rfl | ⟨above, name, rfl⟩
  · exact ⟨es, h⟩
  · rw [List.dropLast_concat]
    exact exists_dir_of_at?_concat h

theorem exists_dir_linkStart {es : List (Text × Tree)} (h : t.at? here = some (.dir es))
    (target : Text) :
    ∃ es, t.at? (Tree.linkStart here target) = some (.dir es) := by
  rw [Tree.linkStart]
  split_ifs
  · cases here with
    | nil => exact ⟨es, h⟩
    | cons n here =>
      obtain ⟨c, hc, -⟩ := at?_cons_eq_some h
      obtain ⟨es, rfl⟩ := exists_dir_of_child? hc
      exact ⟨es, rfl⟩
  · exact ⟨es, h⟩

theorem Way.lands {es : List (Text × Tree)} (h : Way t links here names place)
    (hhere : t.at? here = some (.dir es)) :
    Lands t place := by
  induction h generalizing es with
  | done => exact .dir hhere
  | up _ _ ih =>
    obtain ⟨es, habove⟩ := exists_dir_dropLast hhere
    exact ih habove
  | dir _ _ hat _ ih => exact ih hat
  | link _ _ _ _ ih =>
    obtain ⟨es, hstart⟩ := exists_dir_linkStart hhere _
    exact ih hstart
  | last _ _ hat => exact .entry hhere hat

theorem lands_behind (hup : isUp name = false) (hmore : more ≠ [])
    (h : t.follow links here (way ++ name :: more) = .ok place) : Lands t place := by
  obtain ⟨links', here', -, -, h⟩ := (way_of_follow h).through
  cases h with
  | up hup' => simp [hup] at hup'
  | dir _ _ hat h => exact h.lands hat
  | link _ _ hat h =>
    obtain ⟨es, hhere⟩ := exists_dir_of_at?_concat hat
    obtain ⟨es, hstart⟩ := exists_dir_linkStart hhere _
    exact h.lands hstart
  | last => exact absurd rfl hmore

/-! The places of links -/

mutual

def linkPlaces (place : Place) : Tree → List Place
  | .file .. => []
  | .dir es => linkPlacesIn place es
  | .link _ => [place]

def linkPlacesIn (place : Place) : List (Text × Tree) → List Place
  | [] => []
  | (name, t) :: es => linkPlaces (place ++ [name]) t ++ linkPlacesIn place es

end

mutual

theorem length_linkPlaces (place : Place) : ∀ t : Tree, (linkPlaces place t).length = linkCount t
  | .file .. => rfl
  | .dir es => length_linkPlacesIn place es
  | .link _ => rfl

theorem length_linkPlacesIn (place : Place) :
    ∀ es : List (Text × Tree), (linkPlacesIn place es).length = linkCountIn es
  | [] => rfl
  | (name, t) :: es => by
    rw [linkPlacesIn, List.length_append, length_linkPlaces (place ++ [name]) t,
      length_linkPlacesIn place es, linkCountIn]

end

theorem mem_linkPlacesIn {es : List (Text × Tree)} {u : Tree} {p : Place} (he : (name, u) ∈ es)
    (h : p ∈ linkPlaces (place ++ [name]) u) : p ∈ linkPlacesIn place es := by
  induction es with
  | nil => cases he
  | cons e es ih =>
    rw [linkPlacesIn]
    rcases List.mem_cons.mp he with rfl | he
    · exact List.mem_append_left _ h
    · exact List.mem_append_right _ (ih he)

theorem mem_linkPlaces (place : Place) {target : Text} (h : t.at? more = some (.link target)) :
    place ++ more ∈ linkPlaces place t := by
  induction more generalizing t place with
  | nil =>
    obtain rfl := Option.some.inj h
    rw [List.append_nil]
    exact List.mem_singleton_self _
  | cons name more ih =>
    obtain ⟨c, hc, hlink⟩ := at?_cons_eq_some h
    obtain ⟨es, rfl, he⟩ := mem_of_child? hc
    have hmem := ih (place ++ [name]) hlink
    rw [List.append_assoc, List.singleton_append] at hmem
    exact mem_linkPlacesIn he hmem

theorem length_le_linkCount {places : List Place} (hnodup : places.Nodup)
    (hlinks : ∀ p ∈ places, ∃ target, t.at? p = some (.link target)) :
    places.length ≤ t.linkCount := by
  have hsub : places ⊆ linkPlaces [] t := fun p hp => by
    obtain ⟨target, htarget⟩ := hlinks p hp
    exact mem_linkPlaces [] htarget
  rw [← length_linkPlaces [] t]
  exact (hnodup.subperm hsub).length_le

/-! The place that is known for a way -/

/-- What holds of the links that are being followed: they are as many as the levels that are spent,
and a way that ends with `n` links is too short to go through any of them again. -/
structure Underway (t : Tree) (links n : Nat) (underway : List Place) : Prop where
  nodup : underway.Nodup
  room : underway.length + links = t.linkCount + 1
  isLink : ∀ p ∈ underway, ∃ target, t.at? p = some (.link target)
  fresh : ∀ p ∈ underway, ∀ target, t.at? p = some (.link target) → ∀ m < n, ∀ q,
    t.follow m (linkStart p.dropLast target) (namesOf target) ≠ .ok q

theorem Underway.fewer {underway : List Place} (h : Underway t links n underway) {m : Nat}
    (hm : m ≤ n) :
    Underway t links m underway :=
  ⟨h.nodup, h.room, h.isLink, fun p hp target htarget m' hm' => h.fresh p hp target htarget m'
    (hm'.trans_le hm)⟩

theorem realFrom_up {underway : List Place} (hup : isUp name = true) :
    realFrom t links underway here (name :: names) =
    realFrom t links underway here.dropLast names := by
  rw [realFrom.eq_def]
  dsimp only
  rw [if_pos hup]

theorem realFrom_step {underway : List Place} (hup : ¬ isUp name = true)
    (hat : ∀ target, t.at? (here ++ [name]) ≠ some (.link target)) :
    realFrom t links underway here (name :: names) =
    realFrom t links underway (here ++ [name]) names := by
  rw [realFrom, if_neg hup]
  exact fun target _ hlink => absurd hlink (hat target)

theorem realFrom_link {underway : List Place} {target : Text} {m : Place} (hup : ¬ isUp name = true)
    (hat : t.at? (here ++ [name]) = some (.link target)) (hfresh : here ++ [name] ∉ underway)
    (htarget : realFrom t links ((here ++ [name]) :: underway) (linkStart here target)
      (namesOf target) = (m, true)) :
    realFrom t (links + 1) underway here (name :: names) =
      realFrom t (links + 1) underway m names := by
  rw [realFrom.eq_2 _ _ _ _ _ target _ hat, if_neg hup, if_neg (by simpa using hfresh), htarget]

/-- A link that is followed for the first time joins those underway, with the fewest links that its
target takes. -/
theorem Underway.join {underway : List Place} {target : Text} {k : Nat}
    (h : Underway t links n underway) (hk : k ≤ n)
    (hat : t.at? (here ++ [name]) = some (.link target)) (hfresh : here ++ [name] ∉ underway)
    (hfewest : ∀ m < k, ∀ q, t.follow m (linkStart here target) (namesOf target) ≠ .ok q) :
    ∃ left, links = left + 1 ∧ Underway t left k ((here ++ [name]) :: underway) := by
  have hnodup : ((here ++ [name]) :: underway).Nodup := List.nodup_cons.mpr ⟨hfresh, h.nodup⟩
  have hlinks : ∀ p ∈ (here ++ [name]) :: underway, ∃ target, t.at? p = some (.link target) :=
    List.forall_mem_cons.mpr ⟨⟨target, hat⟩, h.isLink⟩
  have hroom := h.room
  have hlength := length_le_linkCount hnodup hlinks
  rw [List.length_cons] at hlength
  refine ⟨links - 1, by omega, hnodup, by rw [List.length_cons]; omega, hlinks,
    List.forall_mem_cons.mpr ⟨fun target' htarget m hm => ?_, (h.fewer hk).fresh⟩⟩
  obtain rfl : target = target' := by
    rw [hat] at htarget
    cases htarget
    rfl
  rw [List.dropLast_concat]
  exact hfewest m hm

theorem exists_fewest (h : Way t n here names place) :
    ∃ k ≤ n, (∀ m < k, ∀ q, t.follow m here names ≠ .ok q) ∧ Way t k here names place := by
  classical
  have hends : ∃ k, ∃ q, Way t k here names q := ⟨n, place, h⟩
  have hfewest : Nat.find hends ≤ n := Nat.find_min' hends ⟨place, h⟩
  obtain ⟨q, hq⟩ := Nat.find_spec hends
  obtain rfl : q = place := (hq.mono hfewest).unique h
  exact ⟨Nat.find hends, hfewest, fun m hm q hway => Nat.find_min hends hm ⟨q, way_of_follow hway⟩,
    hq⟩

theorem realFrom_eq {underway : List Place} (hunderway : Underway t links n underway)
    (h : Way t n here names place) :
    realFrom t links underway here names = (place, true) := by
  -- on the number of links that the way may take; between links, along the names
  induction n using Nat.strong_induction_on generalizing links underway here names place with
  | _ n ih =>
    induction names generalizing here with
    | nil =>
      cases h
      rw [realFrom]
    | cons name names ihnames =>
      cases h with
      | up hup h =>
        rw [realFrom_up hup]
        exact ihnames h
      | dir hup _ hat h =>
        rw [realFrom_step (by simp [hup]) (by simp [hat])]
        exact ihnames h
      | last hup _ hat =>
        have hnolink (target : Text) : t.at? (here ++ [name]) ≠ some (.link target) := by
          obtain hnone | ⟨bytes, b, hfile⟩ := hat
          · simp [hnone]
          · simp [hfile]
        rw [realFrom_step (by simp [hup]) hnolink, realFrom]
      | link hup _ hat h =>
        obtain ⟨rest, m, hrest, htarget, hnames⟩ := h.through
        obtain ⟨k, hk, hfewest, hq⟩ := exists_fewest htarget
        have hfresh : here ++ [name] ∉ underway := fun hmem =>
          hunderway.fresh _ hmem _ hat _ (Nat.lt_succ_self _) m
            (by rwa [List.dropLast_concat, follow_eq_ok_iff])
        obtain ⟨left, rfl, hjoin⟩ := hunderway.join (Nat.le_succ_of_le hk) hat hfresh hfewest
        rw [realFrom_link (by simp [hup]) hat hfresh (ih _ (Nat.lt_succ_of_le hk) hjoin hq)]
        exact ih rest (Nat.lt_succ_of_le hrest) (hunderway.fewer (Nat.le_succ_of_le hrest)) hnames

theorem Stands.real_eq (hhere : Stands t here) (h : t.follow n here names = .ok place) :
    t.real here names = place := by
  have hunderway : Underway t (t.linkCount + 1) n [] := ⟨List.nodup_nil, by simp, by simp, by simp⟩
  rw [real, realFrom_eq hunderway (way_of_follow h),
    Discovery.collapse_names (hhere.ends h).not_isUp]

end Masthead.Tree
