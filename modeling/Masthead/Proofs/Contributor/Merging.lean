import Masthead.Proofs.Contributor.Ranking

/-! Merging lists of contributors. What is merged is the first entry of every key, in the order in
which the keys come; so it does not matter which lists are merged before others, and whoever is
there already adds nothing. -/

namespace Masthead

variable {people firsts : List Contributor} {seen : List Text}

/-- The list has the first entry of every key as it stands among the people, each key once, in the
order in which the keys first come. -/
structure IsFirsts (people firsts : List Contributor) : Prop where
  sublist : firsts.Sublist people
  mem_iff : ∀ p, p ∈ firsts ↔ first? people p.key = some p
  complete : ∀ p ∈ people, p.key ∈ firsts.map Contributor.key
  once : (firsts.map Contributor.key).Nodup
  order : firsts.Pairwise fun p q => firstPlace people p.key < firstPlace people q.key

theorem distinctFrom_sublist (seen : List Text) (people : List Contributor) :
    (distinctFrom seen people).Sublist people := by
  induction people generalizing seen with
  | nil => exact .slnil
  | cons q people ih =>
    rw [distinctFrom]
    split_ifs
    · exact (ih seen).cons q
    · exact (ih (q.key :: seen)).cons_cons q

theorem isFirsts_distinctFrom (people : List Contributor) :
    IsFirsts people (distinctFrom [] people) where
  sublist := distinctFrom_sublist [] people
  mem_iff p := by simp [mem_distinctFrom_iff]
  complete p hp := mem_keys_distinctFrom.mpr (List.mem_map_of_mem hp)
  once := nodup_keys_distinctFrom [] people
  order := pairwise_distinctFrom [] people

theorem IsFirsts.unique {others : List Contributor} (h : IsFirsts people firsts)
    (h' : IsFirsts people others) :
    firsts = others := by
  refine List.Perm.eq_of_pairwise ?_ h.order h'.order ?_
  · rintro p q - - hlt hgt
    exact absurd hlt (Nat.lt_asymm hgt)
  · rw [List.perm_ext_iff_of_nodup h.once.of_map h'.once.of_map]
    exact fun p => by rw [h.mem_iff, h'.mem_iff]

theorem distinctFrom_eq_nil (h : ∀ p ∈ people, p.key ∈ seen) : distinctFrom seen people = [] := by
  induction people with
  | nil => rfl
  | cons q people ih =>
    rw [List.forall_mem_cons] at h
    rw [distinctFrom, if_pos h.1, ih h.2]

theorem distinctFrom_distinctFrom {seen' : List Text} (h : seen' ⊆ seen)
    (people : List Contributor) :
    distinctFrom seen (distinctFrom seen' people) = distinctFrom seen people := by
  induction people generalizing seen seen' with
  | nil => rfl
  | cons q people ih =>
    rw [distinctFrom, distinctFrom]
    by_cases hq' : q.key ∈ seen'
    · rw [if_pos hq', if_pos (h hq'), ih h]
    · rw [if_neg hq', distinctFrom]
      split_ifs with hq
      · exact ih (List.cons_subset.mpr ⟨hq, h⟩)
      · rw [ih (List.cons_subset_cons q.key h)]

theorem distinctFrom_self (people : List Contributor) :
    distinctFrom [] (distinctFrom [] people) = distinctFrom [] people :=
  distinctFrom_distinctFrom (List.Subset.refl []) people

theorem merge_left (people more : List Contributor) :
    merge (distinctFrom [] people) more = distinctFrom [] (people ++ more) := by
  have hseen : distinctFrom ([] ++ (distinctFrom [] people).map Contributor.key) more =
      distinctFrom ([] ++ people.map Contributor.key) more :=
    distinctFrom_congr fun key => mem_keys_distinctFrom
  rw [merge, distinctFrom_append, distinctFrom_append, distinctFrom_self, hseen]

theorem merge_right (people more : List Contributor) :
    merge people (distinctFrom [] more) = distinctFrom [] (people ++ more) := by
  rw [merge, distinctFrom_append, distinctFrom_append,
    distinctFrom_distinctFrom (List.nil_subset _)]

theorem merge_of_credited {added : List Contributor}
    (h : ∀ p ∈ added, credits people p.email = true) :
    merge people added = distinctFrom [] people := by
  have hnobody : distinctFrom ([] ++ people.map Contributor.key) added = [] :=
    distinctFrom_eq_nil fun p hp => credits_iff.mp (h p hp)
  rw [merge, distinctFrom_append, hnobody, List.append_nil]

/-- Merging is the ordered union by key: it gives the first entry of every key and no other list,
the lists may be merged in any grouping, and entries whose keys are there change nothing. Ranking by
recency merges with nobody. -/
theorem merge_orderedUnion (a b c : List Contributor) :
    (∀ merged, merged = merge a b ↔ IsFirsts (a ++ b) merged) ∧
      merge (merge a b) c = merge a (merge b c) ∧
      (∀ added : List Contributor, (∀ p ∈ added, credits (merge a b) p.email = true) →
        merge (merge a b) added = merge a b) ∧
      rankByRecency a = merge a [] := by
  refine ⟨fun merged => ⟨?_, fun h => h.unique (isFirsts_distinctFrom (a ++ b))⟩, ?_,
    fun added hadded => ?_, ?_⟩
  · rintro rfl
    exact isFirsts_distinctFrom (a ++ b)
  · calc merge (merge a b) c = distinctFrom [] (a ++ b ++ c) := merge_left (a ++ b) c
      _ = distinctFrom [] (a ++ (b ++ c)) := by rw [List.append_assoc]
      _ = merge a (merge b c) := (merge_right a (b ++ c)).symm
  · rw [merge_of_credited hadded]
    exact distinctFrom_self (a ++ b)
  · rw [rankByRecency_eq, merge, List.append_nil]

theorem merge_orderedUnion_respelled :
    let john : Contributor := ⟨"John".toList, "john@example.com".toList⟩
    let jane : Contributor := ⟨"Jane".toList, "jane@example.com".toList⟩
    let johnny : Contributor := ⟨"Johnny".toList, "JOHN@example.com".toList⟩
    merge [john] [johnny, jane] = [john, jane] ∧
      (∀ p ∈ [johnny], credits (merge [john] [johnny, jane]) p.email = true) ∧
      merge (merge [john] [johnny, jane]) [johnny] = merge [john] [johnny, jane] := by
  intro john jane johnny
  have hcredited : ∀ p ∈ [johnny], credits (merge [john] [johnny, jane]) p.email = true := by decide
  exact ⟨by
    decide, hcredited, (merge_orderedUnion [john] [johnny, jane] []).2.2.1 [johnny] hcredited⟩

end Masthead
