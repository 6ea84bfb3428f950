import Masthead.Contributor.Ranking
import Masthead.Proofs.Contributor.Crediting
import Mathlib.Algebra.Ring.Nat
import Mathlib.Data.List.Induction
import Mathlib.Data.List.Sort

/-! Rankings. Sorting a tally keeps the order of equal counts, and a tally holds the first one of
every key with what was credited to the key in all. A ranking is determined by the weights of the
keys and by who has them first, so that commits may trade places as long as the first commits of all
authors stay in order. -/

namespace Masthead

/-- What holds between the entries of a list in their order still holds, after sorting, between
those that the comparison does not tell apart. -/
theorem pairwise_mergeSort_of_ties {α : Type} {le : α → α → Bool} {r : α → α → Prop} {l : List α}
    (trans : ∀ a b c, le a b = true → le b c = true → le a c = true)
    (total : ∀ a b, (le a b || le b a) = true) (h : l.Pairwise r) :
    (l.mergeSort le).Pairwise fun a b => le b a = true → r a b := by
  -- sorting is the same as sorting by the comparison and then by the place in the list
  rw [← List.mergeSort_zipIdx, List.pairwise_map]
  have hsorted := List.pairwise_mergeSort (List.zipIdxLE_trans trans)
    (List.zipIdxLE_total total) l.zipIdx
  have hplaces : l.zipIdx.Pairwise fun x y => x.2 ≠ y.2 := by
    have hnodup : (l.zipIdx.map Prod.snd).Nodup := by
      rw [List.zipIdx_map_snd]
      exact List.nodup_range'
    exact List.pairwise_map.mp hnodup
  have hdistinct := ((List.mergeSort_perm l.zipIdx (List.zipIdxLE le)).pairwise_iff Ne.symm).mpr
    hplaces
  refine (hsorted.and hdistinct).imp_of_mem fun {x y} hx hy hxy htie => ?_
  obtain ⟨-, hxlt, hxeq⟩ := List.mem_zipIdx (List.mem_mergeSort.mp hx)
  obtain ⟨-, hylt, hyeq⟩ := List.mem_zipIdx (List.mem_mergeSort.mp hy)
  have hlt : x.2 < y.2 := by
    obtain ⟨hle, hne⟩ := hxy
    rw [List.zipIdxLE, if_pos htie] at hle
    split_ifs at hle
    exact lt_of_le_of_ne (of_decide_eq_true hle) hne
  rw [hxeq, hyeq]
  exact List.pairwise_iff_getElem.mp h _ _ _ _ (by omega)

/-! What a tally holds -/

def total (credits : List (Contributor × Nat)) (key : Text) : Nat :=
  ((credits.filter (·.1.key = key)).map (·.2)).sum

theorem total_concat (credits : List (Contributor × Nat)) (author : Contributor) (n : Nat)
    (key : Text) :
    total (credits ++ [(author, n)]) key = total credits key + if author.key =
    key then n else 0 := by
  rw [total, List.filter_append, List.map_append, List.sum_append, ← total]
  congr 1
  split_ifs with h <;> simp [h]

theorem total_of_forall_ne {credits : List (Contributor × Nat)} {key : Text}
    (h : ∀ e ∈ credits, e.1.key ≠ key) : total credits key = 0 := by
  rw [total, List.filter_eq_nil_iff.mpr fun e he => by simpa using h e he]
  rfl

namespace Tally

def weighing (people : List Contributor) (weight : Text → Nat) : Tally :=
  (distinctFrom [] people).map fun p => (p, weight p.key)

theorem any_weighing {people : List Contributor} {weight : Text → Nat} {key : Text} :
    (weighing people weight).any (·.1.key = key) = true ↔ key ∈ people.map Contributor.key := by
  rw [← mem_keys_distinctFrom, weighing, List.any_map, List.any_eq_true, List.mem_map]
  simp only [Function.comp_apply, decide_eq_true_eq]

theorem weighing_congr {people : List Contributor} {weight weight' : Text → Nat}
    (h : ∀ p ∈ people, weight p.key = weight' p.key) :
    weighing people weight = weighing people weight' :=
  List.map_congr_left fun p hp => by rw [h p (mem_of_mem_distinctFrom hp)]

theorem add_of_known {t : Tally} {author : Contributor} (h : t.any (·.1.key = author.key) = true)
    (n : Nat) :
    t.add author n = t.map fun e => if e.1.key = author.key then (e.1, e.2 + n) else e :=
  if_pos h

theorem add_of_new {t : Tally} {author : Contributor} (h : ¬ t.any (·.1.key = author.key) = true)
    (n : Nat) :
    t.add author n = t ++ [(author, n)] :=
  if_neg h

theorem add_add (t : Tally) (author : Contributor) (m n : Nat) :
    (t.add author m).add author n = t.add author (m + n) := by
  by_cases h : t.any (·.1.key = author.key) = true
  · have hany : (t.add author m).any (·.1.key = author.key) = true := by
      rw [add_of_known h, List.any_map, ← h]
      congr 1
      funext e
      rw [Function.comp_apply]
      split_ifs <;> rfl
    rw [add_of_known hany, add_of_known h, add_of_known h, List.map_map]
    apply List.map_congr_left
    intro e _
    rw [Function.comp_apply]
    by_cases he : e.1.key = author.key
    · simp [he, Nat.add_assoc]
    · simp [he]
  · have hany : (t.add author m).any (·.1.key = author.key) = true := by
      rw [add_of_new h]
      simp
    have hsame : (t.map fun e => if e.1.key = author.key then (e.1, e.2 + n) else e) = t := by
      refine (List.map_congr_left fun e he => if_neg fun hkey => ?_).trans (List.map_id t)
      exact h (List.any_eq_true.mpr ⟨e, he, decide_eq_true hkey⟩)
    rw [add_of_known hany, add_of_new h, add_of_new h, List.map_append, hsame, List.map_singleton,
      if_pos rfl]

theorem add_weighing (people : List Contributor) (weight : Text → Nat)
    (author : Contributor) (n : Nat) (hnew : author.key ∉ people.map Contributor.key →
      weight author.key = 0) :
    (weighing people weight).add author n =
      weighing (people ++ [author]) fun key => weight key + if author.key = key then n else 0 := by
  by_cases h : author.key ∈ people.map Contributor.key
  · have hdistinct : distinctFrom [] (people ++ [author]) = distinctFrom [] people := by
      simp [distinctFrom_append, distinctFrom, h]
    rw [add_of_known (any_weighing.mpr h), weighing, weighing, hdistinct, List.map_map]
    apply List.map_congr_left
    intro p _
    rw [Function.comp_apply]
    by_cases hp : p.key = author.key
    · rw [if_pos hp, if_pos hp.symm]
    · rw [if_neg hp, if_neg (Ne.symm hp), Nat.add_zero]
  · have hdistinct : distinctFrom [] (people ++ [author]) = distinctFrom [] people ++ [author] := by
      simp [distinctFrom_append, distinctFrom, h]
    rw [add_of_new (mt any_weighing.mp h), weighing, weighing, hdistinct, List.map_append,
      List.map_singleton, if_pos rfl, hnew h, Nat.zero_add]
    congr 1
    apply List.map_congr_left
    intro p hp
    have hne : author.key ≠ p.key := fun heq =>
      h (List.mem_map.mpr ⟨p, mem_of_mem_distinctFrom hp, heq.symm⟩)
    rw [if_neg hne, Nat.add_zero]

/-- Whoever is credited stands in the tally under the first name, with all that is credited to the
key. -/
theorem foldl_add (credits : List (Contributor × Nat)) :
    credits.foldl (fun t e => Tally.add t e.1 e.2) [] =
      weighing (credits.map Prod.fst) (total credits) := by
  induction credits using List.reverseRecOn with
  | nil => rfl
  | append_singleton credits e ih =>
    obtain ⟨author, n⟩ := e
    have hnew (h : author.key ∉ (credits.map Prod.fst).map Contributor.key) : total credits
        author.key = 0 :=
      total_of_forall_ne fun e he heq => h (List.mem_map.mpr ⟨e.1, List.mem_map_of_mem he, heq⟩)
    rw [List.foldl_append, ih, List.foldl_cons, List.foldl_nil, add_weighing _ _ _ _ hnew,
      List.map_append]
    exact weighing_congr fun p _ => (total_concat credits author n p.key).symm

theorem authors_weighing (people : List Contributor) (weight : Text → Nat) :
    (weighing people weight).authors = distinctFrom [] people := by
  rw [weighing, authors, List.map_map]
  exact List.map_id _

theorem ranked_weighing (people : List Contributor) (weight : Text → Nat) :
    (weighing people weight).ranked =
      (distinctFrom [] people).mergeSort fun p q => decide (weight q.key ≤ weight p.key) := by
  rw [ranked, authors, weighing,
    ← List.map_mergeSort (r := fun p q => decide (weight q.key ≤ weight p.key))]
  · rw [List.map_map]
    exact List.map_id _
  · intro p _ q _
    rfl

end Tally

/-! Rankings -/

/-- The list has the first one of every key, each once, highest weight first and equal weights in
the order in which the keys first come. -/
structure IsRanking (people : List Contributor) (weight : Text → Nat) (ranking : List Contributor) :
    Prop where
  mem_iff : ∀ p, p ∈ ranking ↔ first? people p.key = some p
  once : (ranking.map Contributor.key).Nodup
  falling : ranking.Pairwise fun p q => weight q.key ≤ weight p.key
  steady : ranking.Pairwise fun p q => weight p.key = weight q.key →
    firstPlace people p.key < firstPlace people q.key

section IsRanking
variable {people : List Contributor} {weight : Text → Nat} {ranking : List Contributor}

theorem isRanking_ranked (people : List Contributor) (weight : Text → Nat) :
    IsRanking people weight (Tally.weighing people weight).ranked := by
  rw [Tally.ranked_weighing]
  have htrans (p q r : Contributor) : decide (weight q.key ≤ weight p.key) = true →
      decide (weight r.key ≤ weight q.key) = true →
      decide (weight r.key ≤ weight p.key) = true := by
    simp only [decide_eq_true_eq]
    omega
  have htotal (p q : Contributor) :
      (decide (weight q.key ≤ weight p.key) || decide (weight p.key ≤ weight q.key)) = true := by
    simp only [Bool.or_eq_true, decide_eq_true_eq]
    omega
  refine ⟨fun p => ?_, ?_, ?_, ?_⟩
  · rw [List.mem_mergeSort, mem_distinctFrom_iff]
    simp
  · exact ((List.mergeSort_perm _ _).map _).nodup_iff.mpr (nodup_keys_distinctFrom [] people)
  · exact (List.pairwise_mergeSort htrans htotal _).imp of_decide_eq_true
  · refine (pairwise_mergeSort_of_ties htrans htotal (pairwise_distinctFrom [] people)).imp ?_
    intro p q h heq
    exact h (decide_eq_true heq.le)

theorem IsRanking.unique {other : List Contributor} (h : IsRanking people weight ranking)
    (h' : IsRanking people weight other) : ranking = other := by
  refine List.Perm.eq_of_pairwise ?_ (h.falling.and h.steady) (h'.falling.and h'.steady) ?_
  · rintro p q - - ⟨hle, hlt⟩ ⟨hge, hgt⟩
    have heq : weight p.key = weight q.key := Nat.le_antisymm hge hle
    exact absurd (hlt heq) (Nat.lt_asymm (hgt heq.symm))
  · rw [List.perm_ext_iff_of_nodup h.once.of_map h'.once.of_map]
    exact fun p => by rw [h.mem_iff, h'.mem_iff]

theorem IsRanking.of_perm {others : List Contributor} (h : IsRanking others weight ranking)
    (hperm : others.Perm people) (hfirst : ∀ p ∈ people, first? others p.key = first? people p.key)
    (hplace : ∀ p ∈ people, ∀ q ∈ people, firstPlace others p.key < firstPlace others q.key ↔
      firstPlace people p.key < firstPlace people q.key) :
    IsRanking people weight ranking := by
  have hmem {p : Contributor} (hp : p ∈ ranking) : p ∈ people :=
    hperm.mem_iff.mp (first?_eq_some_mem ((h.mem_iff p).mp hp)).1
  refine ⟨fun p => ?_, h.once, h.falling, h.steady.imp_of_mem fun {p q} hp hq hlt heq => ?_⟩
  · refine (h.mem_iff p).trans ⟨fun hp => ?_, fun hp => ?_⟩
    · rw [← hfirst p (hperm.mem_iff.mp (first?_eq_some_mem hp).1), hp]
    · rw [hfirst p (first?_eq_some_mem hp).1, hp]
  · exact (hplace p (hmem hp) q (hmem hq)).mp (hlt heq)

end IsRanking

/-! Ranking one entry per commit -/

theorem total_map_one (authors : List Contributor) (key : Text) :
    total (authors.map fun a => (a, 1)) key = authors.countP (·.key = key) := by
  induction authors using List.reverseRecOn with
  | nil => rfl
  | append_singleton authors a ih =>
    rw [List.map_append, List.map_singleton, total_concat, ih, List.countP_append,
      List.countP_singleton]
    simp only [decide_eq_true_eq]

theorem Tally.foldl_add_one (authors : List Contributor) :
    authors.foldl (fun t a => Tally.add t a 1) [] =
      weighing authors fun key => authors.countP (·.key = key) := by
  have hcredits : (authors.map fun a => (a, 1)).map Prod.fst = authors := by
    rw [List.map_map]
    exact List.map_id _
  have hfold := foldl_add (authors.map fun a => (a, 1))
  rwa [List.foldl_map, hcredits, funext (total_map_one authors)] at hfold

theorem rankByRecency_eq (authors : List Contributor) :
    rankByRecency authors = distinctFrom [] authors := by
  rw [rankByRecency, Tally.foldl_add_one, Tally.authors_weighing]

/-- Authors rank by the number of their commits, under the name of their first commit. Commits may
trade places as long as the first commits of all authors stay and stay in order. -/
theorem rankByCommits_isRanking (authors : List Contributor) :
    IsRanking authors (fun key => authors.countP (·.key = key)) (rankByCommits authors) ∧
      ∀ others : List Contributor, others.Perm authors →
        (∀ p ∈ authors, first? others p.key = first? authors p.key) →
        (∀ p ∈ authors, ∀ q ∈ authors, firstPlace others p.key < firstPlace others q.key ↔
          firstPlace authors p.key < firstPlace authors q.key) →
        rankByCommits others = rankByCommits authors := by
  have hranking (authors : List Contributor) :
      IsRanking authors (fun key => authors.countP (·.key = key)) (rankByCommits authors) := by
    rw [rankByCommits, Tally.foldl_add_one]
    exact isRanking_ranked authors _
  refine ⟨hranking authors, fun others hperm hfirst hplace => ?_⟩
  have hcounts : (fun key => others.countP (·.key = key)) = fun key =>
      authors.countP (·.key = key) :=
    funext fun key => hperm.countP_eq _
  have hothers := hranking others
  rw [hcounts] at hothers
  exact (hothers.of_perm hperm hfirst hplace).unique (hranking authors)

theorem rankByCommits_moved :
    let john : Contributor := ⟨"John".toList, "john@example.com".toList⟩
    let jane : Contributor := ⟨"Jane".toList, "jane@example.com".toList⟩
    let johnny : Contributor := ⟨"Johnny".toList, "JOHN@example.com".toList⟩
    let alex : Contributor := ⟨"Alex".toList, "alex@example.com".toList⟩
    let authors := [john, jane, jane, alex, johnny]
    IsRanking authors (fun key => authors.countP (·.key = key)) (rankByCommits authors) ∧
      rankByCommits [john, johnny, jane, jane, alex] = rankByCommits authors := by
  intro john jane johnny alex authors
  obtain ⟨hranking, hmoved⟩ := rankByCommits_isRanking authors
  exact ⟨hranking, hmoved [john, johnny, jane, jane, alex] (by decide) (by decide) (by decide)⟩

end Masthead
