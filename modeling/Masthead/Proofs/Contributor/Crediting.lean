import Masthead.Header.Writing
import Mathlib.Data.List.Basic

/-! Who is credited. Merging and adding keep everybody who is there and credit everybody who is to
be added, each address once; cutting a list off before adding and after it comes to the same. -/

namespace Masthead

variable {people : List Contributor} {p : Contributor} {seen : List Text}

theorem credits_iff : credits people p.email = true ↔ p.key ∈ people.map Contributor.key := by
  simp only [credits, List.any_eq_true, decide_eq_true_eq, List.mem_map]
  rfl

theorem mem_of_mem_distinctFrom (h : p ∈ distinctFrom seen people) : p ∈ people := by
  induction people generalizing seen with
  | nil => simp [distinctFrom] at h
  | cons q people ih =>
    rw [distinctFrom] at h
    split_ifs at h
    · exact List.mem_cons_of_mem _ (ih h)
    · rcases List.mem_cons.mp h with rfl | h
      · exact List.mem_cons_self
      · exact List.mem_cons_of_mem _ (ih h)

theorem key_mem_distinctFrom (h : p ∈ people) :
    p.key ∈ seen ∨ p.key ∈ (distinctFrom seen people).map Contributor.key := by
  induction people generalizing seen with
  | nil => simp at h
  | cons q people ih =>
    rw [distinctFrom]
    rcases List.mem_cons.mp h with rfl | h
    · by_cases hp : p.key ∈ seen
      · exact Or.inl hp
      · right
        simp [hp]
    · split_ifs
      · exact ih h
      · rcases @ih (q.key :: seen) h with hp | hp
        · rcases List.mem_cons.mp hp with hq | hp
          · right
            simp [hq]
          · exact Or.inl hp
        · right
          exact List.mem_cons_of_mem _ hp

theorem distinctFrom_congr {seen' : List Text} (h : ∀ k, k ∈ seen ↔ k ∈ seen') :
    distinctFrom seen people = distinctFrom seen' people := by
  induction people generalizing seen seen' with
  | nil => rfl
  | cons q people ih =>
    have hcons : ∀ k, k ∈ q.key :: seen ↔ k ∈ q.key :: seen' := by simp [h]
    simp only [distinctFrom, h q.key, ih h, ih hcons]

theorem mem_keys_distinctFrom {key : Text} :
    key ∈ (distinctFrom [] people).map Contributor.key ↔ key ∈ people.map Contributor.key := by
  constructor
  · intro h
    obtain ⟨p, hp, rfl⟩ := List.mem_map.mp h
    exact List.mem_map_of_mem (mem_of_mem_distinctFrom hp)
  · intro h
    obtain ⟨p, hp, rfl⟩ := List.mem_map.mp h
    exact (key_mem_distinctFrom hp).resolve_left List.not_mem_nil

theorem distinctFrom_append (seen : List Text) (people more : List Contributor) :
    distinctFrom seen (people ++ more) =
      distinctFrom seen people ++ distinctFrom (seen ++ people.map Contributor.key) more := by
  induction people generalizing seen with
  | nil => simp [distinctFrom]
  | cons q people ih =>
    rw [List.cons_append, distinctFrom, distinctFrom]
    split_ifs with hq
    · have hseen : distinctFrom (seen ++ people.map Contributor.key) more =
          distinctFrom (seen ++ (q :: people).map Contributor.key) more := by
        refine distinctFrom_congr fun k => ?_
        simp only [List.map_cons, List.mem_append, List.mem_cons]
        constructor
        · exact fun h => h.imp_right Or.inr
        · rintro (h | rfl | h)
          · exact Or.inl h
          · exact Or.inl hq
          · exact Or.inr h
      rw [ih, hseen]
    · have hseen : distinctFrom (q.key :: seen ++ people.map Contributor.key) more =
          distinctFrom (seen ++ (q :: people).map Contributor.key) more := by
        refine distinctFrom_congr fun k => ?_
        simp only [List.map_cons, List.cons_append, List.mem_append, List.mem_cons]
        exact or_left_comm
      rw [ih, hseen, List.cons_append]

/-! Who has a key first, and where -/

def first? (people : List Contributor) (key : Text) : Option Contributor :=
  people.find? (·.key = key)

def firstPlace (people : List Contributor) (key : Text) : Nat := people.findIdx (·.key = key)

theorem first?_eq_some_mem {key : Text} (h : first? people key = some p) :
    p ∈ people ∧ p.key = key :=
  ⟨List.mem_of_find?_eq_some h, by simpa using List.find?_some h⟩

theorem first?_cons_of_ne {q : Contributor} {key : Text} (h : q.key ≠ key)
    (people : List Contributor) :
    first? (q :: people) key = first? people key := List.find?_cons_of_neg (by simpa using h)

theorem firstPlace_cons_of_ne {q : Contributor} {key : Text} (h : q.key ≠ key)
    (people : List Contributor) :
    firstPlace (q :: people) key = firstPlace people key + 1 := by
  rw [firstPlace, List.findIdx_cons, decide_eq_false h]
  rfl

theorem mem_distinctFrom_iff :
    p ∈ distinctFrom seen people ↔ p.key ∉ seen ∧ first? people p.key = some p := by
  induction people generalizing seen with
  | nil => simp [distinctFrom, first?]
  | cons q people ih =>
    rw [distinctFrom]
    by_cases hp : q.key = p.key
    · have hfirst : first? (q :: people) p.key = some q :=
        List.find?_cons_of_pos (by simpa using hp)
      rw [hfirst, Option.some_inj]
      split_ifs with hq
      · rw [hp] at hq
        simp [ih, hq]
      · rw [hp] at hq
        simp [ih, hp, hq, eq_comm]
    · rw [first?_cons_of_ne hp]
      split_ifs with hq
      · exact ih
      · have hne : p ≠ q := fun h => hp (congrArg Contributor.key h.symm)
        simp [ih, hne, Ne.symm hp]

theorem pairwise_distinctFrom (seen : List Text) (people : List Contributor) :
    (distinctFrom seen people).Pairwise fun p q => firstPlace people p.key <
    firstPlace people q.key := by
  induction people generalizing seen with
  | nil => exact .nil
  | cons q people ih =>
    -- whoever is not of the first key comes one place later than among the others
    have hlater {seen : List Text} (hq : q.key ∈ seen) :
        (distinctFrom seen people).Pairwise fun p r =>
          firstPlace (q :: people) p.key < firstPlace (q :: people) r.key := by
      refine (ih seen).imp_of_mem fun {p r} hp hr h => ?_
      have hne {p : Contributor} (hp : p ∈ distinctFrom seen people) : q.key ≠ p.key :=
        fun heq => (mem_distinctFrom_iff.mp hp).1 (heq ▸ hq)
      rw [firstPlace_cons_of_ne (hne hp), firstPlace_cons_of_ne (hne hr)]
      exact Nat.succ_lt_succ h
    rw [distinctFrom]
    split_ifs with hq
    · exact hlater hq
    · refine List.pairwise_cons.mpr ⟨fun p hp => ?_, hlater List.mem_cons_self⟩
      have hne : q.key ≠ p.key :=
        fun heq => (mem_distinctFrom_iff.mp hp).1 (heq ▸ List.mem_cons_self)
      have hzero : firstPlace (q :: people) q.key = 0 := by
        rw [firstPlace, List.findIdx_cons, decide_eq_true rfl]
        rfl
      rw [hzero, firstPlace_cons_of_ne hne]
      exact Nat.succ_pos _

theorem nodup_keys_distinctFrom (seen : List Text) (people : List Contributor) :
    ((distinctFrom seen people).map Contributor.key).Nodup := by
  rw [List.nodup_iff_pairwise_ne, List.pairwise_map]
  refine (pairwise_distinctFrom seen people).imp fun {p q} h heq => ?_
  rw [heq] at h
  exact Nat.lt_irrefl _ h

theorem mem_of_mem_merge {existing added : List Contributor} (h : p ∈ merge existing added) :
    p ∈ existing ∨ p ∈ added :=
  List.mem_append.mp (mem_of_mem_distinctFrom h)

theorem credits_merge {existing added : List Contributor} (h : p ∈ existing ++ added) :
    credits (merge existing added) p.email = true := by
  rw [credits_iff]
  exact (key_mem_distinctFrom h).resolve_left List.not_mem_nil

theorem merge_ne_nil {existing added : List Contributor} (h : existing ++ added ≠ []) :
    merge existing added ≠ [] := by
  obtain ⟨q, hq⟩ := List.exists_mem_of_ne_nil _ h
  intro hnil
  have hcredits := credits_merge hq
  simp [hnil, credits] at hcredits

theorem credits_append (xs ys : List Contributor) (email : Text) :
    credits (xs ++ ys) email = true ↔ credits xs email = true ∨ credits ys email = true := by
  simp [credits]

theorem credits_take_concat {people : List Contributor} {p : Contributor} (n : Nat)
    (hnew : credits people p.email = false) :
    credits ((people ++ [p]).take n) p.email = true ↔ people.length < n := by
  by_cases hroom : people.length < n
  · rw [List.take_of_length_le (by simp; omega), credits_append]
    exact iff_of_true (Or.inr (by simp [credits, Contributor.key])) hroom
  · rw [List.take_append_of_le_length (by omega)]
    refine iff_of_false (fun hcut => ?_) hroom
    rw [credits_iff] at hcut
    rw [← Bool.not_eq_true, credits_iff] at hnew
    exact hnew (List.map_subset _ (List.take_subset n people) hcut)

namespace Header

theorem withUser_eq (people : List Contributor) (user : Option Contributor) :
    withUser people user = people ++ distinctFrom (people.map Contributor.key) user.toList := by
  cases user with
  | none => simp [withUser, distinctFrom]
  | some p =>
    simp only [withUser, credits_iff, Option.toList_some, distinctFrom]
    by_cases h : p.key ∈ people.map Contributor.key
    · rw [if_pos h, if_pos h, List.append_nil]
    · rw [if_neg h, if_neg h]

theorem mem_of_mem_withUser {user : Option Contributor} (h : p ∈ withUser people user) :
    p ∈ people ∨ p ∈ user := by
  rw [withUser_eq, List.mem_append] at h
  exact h.imp_right fun hp => Option.mem_toList.mp (mem_of_mem_distinctFrom hp)

theorem credits_withUser {user : Option Contributor} (h : p ∈ user) :
    Masthead.credits (withUser people user) p.email = true := by
  rw [credits_iff, withUser_eq, List.map_append, List.mem_append]
  exact key_mem_distinctFrom (Option.mem_toList.mpr h)

theorem withUser_eq_self {user : Option Contributor}
    (h : ∀ p ∈ user, Masthead.credits people p.email = true) :
    withUser people user = people := by
  cases user with
  | none => rfl
  | some p => rw [withUser, if_pos (h p rfl)]

theorem foldl_withUser (people : List Contributor) (users : List (Option Contributor)) :
    users.foldl withUser people =
      people ++ distinctFrom (people.map Contributor.key) (users.filterMap id) := by
  induction users generalizing people with
  | nil => simp [distinctFrom]
  | cons user users ih =>
    rw [List.foldl_cons, ih, withUser_eq]
    cases user with
    | none => simp [distinctFrom]
    | some p =>
      by_cases hp : p.key ∈ people.map Contributor.key
      · simp [distinctFrom, hp]
      · have hseen : distinctFrom (people.map Contributor.key ++ [p.key]) (users.filterMap id) =
            distinctFrom (p.key :: people.map Contributor.key) (users.filterMap id) :=
          distinctFrom_congr fun k => by simp [or_comm]
        simp only [List.filterMap_cons_some (f := id) rfl, distinctFrom, if_neg hp,
          Option.toList_some, List.map_append, List.map_cons, List.map_nil, hseen,
          List.append_assoc, List.singleton_append]

theorem take_withUser (n : Nat) (people : List Contributor) (user : Option Contributor) :
    (withUser (people.take n) user).take n = (withUser people user).take n := by
  by_cases h : people.length ≤ n
  · rw [List.take_of_length_le h]
  · have hlen : (people.take n).length = n := List.length_take_of_le (by omega)
    rw [withUser_eq, withUser_eq, List.take_append_of_le_length (by omega),
      List.take_append_of_le_length (by omega), List.take_take, Nat.min_self]

theorem take_foldl_withUser (n : Nat) (people : List Contributor)
    (users : List (Option Contributor)) :
    (users.foldl withUser (people.take n)).take n = (users.foldl withUser people).take n := by
  induction users generalizing people with
  | nil => rw [List.foldl_nil, List.foldl_nil, List.take_take, Nat.min_self]
  | cons user users ih =>
    rw [List.foldl_cons, List.foldl_cons, ← ih, take_withUser, ih]

end Header
end Masthead
