import Masthead.Proofs.Header.Pattern

/-! Which names are read back. Whoever is found on a line has a trimmed name that hides no address,
and such a name is read back exactly where at least two blanks stand behind it. -/

namespace Masthead.Header
open Text (Blank Ends isBlank spaces)

structure Trimmed (s : Text) : Prop where
  ne_nil : s ≠ []
  line : '\n' ∉ s
  head : ∀ c ∈ s.head?, isBlank c = false
  last : ∀ c ∈ s.getLast?, isBlank c = false

/-- Nowhere in the name do two blanks and an address stand behind a part of it. -/
def Plain (s : Text) : Prop :=
  ∀ front back, s = front ++ back → front ≠ [] → back ≠ [] → blanksThen address? 2 back = none

section Addresses

theorem address?_blank {c : Char} (hc : isBlank c = true) (s : Text) :
    address? (c :: s) = none := by
  simp [address?, word, isAddress, hc]

theorem address?_eq_some_iff {s e : Text} :
    address? s = some e ↔ Address e ∧ ∃ t, s = e ++ t ∧ Ends t := by
  constructor
  · intro h
    rw [address?] at h
    split_ifs at h with ha
    obtain rfl := Option.some.inj h
    have hsolid : ∀ c ∈ word s, isBlank c = false :=
      fun c hc => by simpa using List.mem_takeWhile_imp hc
    refine ⟨address_of_isAddress ha hsolid, afterWord s, List.takeWhile_append_dropWhile.symm, ?_⟩
    intro c hc
    have hstop := List.head?_dropWhile_not (!isBlank ·) s
    rw [show s.dropWhile (!isBlank ·) = afterWord s from rfl, hc] at hstop
    simpa using hstop
  · rintro ⟨he, t, rfl, ht⟩
    exact address?_append he ht

theorem address?_some {s e : Text} (h : address? s = some e) :
    Address e ∧ s ≠ [] ∧ ∀ c ∈ s.head?, isBlank c = false := by
  obtain ⟨he, t, rfl, -⟩ := address?_eq_some_iff.mp h
  exact ⟨he, by simp [he.word.ne_nil], he.word.head t⟩

theorem blanksThen_address?_append {n : Nat} {s t : Text} (hs : s ≠ [])
    (hl : ∀ c ∈ s.getLast?, isBlank c = false) (ht : Ends t) :
    blanksThen address? n (s ++ t) = blanksThen address? n s := by
  induction s generalizing n with
  | nil => exact absurd rfl hs
  | cons c s ih =>
    by_cases hc : isBlank c = true
    · have hne : s ≠ [] := by
        rintro rfl
        have hsolid := hl c rfl
        rw [hc] at hsolid
        exact absurd hsolid (by decide)
      have hlast : ∀ d ∈ s.getLast?, isBlank d = false := by
        intro d hd
        exact hl d (by rwa [List.getLast?_cons_of_ne_nil hne])
      have hrest : ∀ m, blanksThen address? m (s ++ t) = blanksThen address? m s :=
        fun m => ih hne hlast
      simp only [List.cons_append, blanksThen, hc, if_true, hrest, address?_blank hc]
    · have haddress : address? (c :: (s ++ t)) = address? (c :: s) := by
        rw [← List.cons_append]
        simp only [address?, word_append_ends _ ht]
      simp only [List.cons_append, blanksThen, hc, Bool.false_eq_true, if_false, haddress]

end Addresses

section Names
variable {s e : Text}

theorem Name.trimmed (h : Name s) : Trimmed s := ⟨h.ne_nil, h.line, h.head, h.last⟩

theorem Name.plain (h : Name s) : Plain s := by
  intro front back hsplit _ hback
  refine Option.eq_none_iff_forall_not_mem.mpr fun a ha => ?_
  obtain ⟨b, r, heq, hb, hlen, -⟩ := blanksThen_some ha
  obtain ⟨c, d, b, rfl⟩ : ∃ c d b', b = c :: d :: b' := by
    rcases b with _ | ⟨c, _ | ⟨d, b⟩⟩
    · simp at hlen
    · simp at hlen
    · exact ⟨c, d, b, rfl⟩
  have hc : isBlank c = true := hb c (by simp)
  have hd : isBlank d = true := hb d (by simp)
  have hsingle := h.single
  rw [hsplit, heq] at hsingle
  exact (List.isChain_cons_cons.mp hsingle.right_of_append).1 ⟨hc, hd⟩

theorem Trimmed.head_append (h : Trimmed s) (t : Text) :
    ∀ c ∈ (s ++ t).head?, isBlank c = false := by
  rw [List.head?_append_of_ne_nil _ h.ne_nil]
  exact h.head

theorem Trimmed.back {front back : Text} (h : Trimmed s) (hs : s = front ++ back)
    (hback : back ≠ []) :
    ∀ c ∈ back.getLast?, isBlank c = false := by
  intro c hc
  exact h.last c (by rwa [hs, List.getLast?_append_of_ne_nil _ hback])

theorem person?_plain {n : Nat} (hs : Trimmed s) (hplain : Plain s) (he : Address e) (hn : 2 ≤ n) :
    person? (s ++ (spaces n ++ e)) = some ⟨s, e⟩ := by
  have hends : Ends (spaces n ++ e) := Text.ends_spaces (by omega) e
  have hnext : blanksThen address? 2 (spaces n ++ e) = some e := by
    refine blanksThen_append (Text.blank_spaces n) ?_ (by simpa [spaces] using hn) ?_
    · simpa using he.word.head []
    · simpa using address?_append he Text.ends_nil
  have hshort : shortestThen (blanksThen address? 2) (s ++ (spaces n ++ e)) = some (s, e) := by
    refine shortestThen_append hs.ne_nil hs.line hnext fun front back hsplit hf hb => ?_
    rw [blanksThen_address?_append hb (hs.back hsplit hb) hends]
    exact hplain front back hsplit hf hb
  simp only [person?, hshort, Option.map_some, Text.strip_eq_self hs.head hs.last]

end Names

section Found
variable {s : Text} {p : Contributor}

theorem person?_some (h : person? s = some p) :
    ∃ t b u, s = t ++ (b ++ u) ∧ p.name = Text.strip t ∧ '\n' ∉ t ∧ Blank b ∧ 2 ≤ b.length ∧
      address? u = some p.email ∧
      ∀ front back, t = front ++ back → front ≠ [] → back ≠ [] →
        blanksThen address? 2 (back ++ (b ++ u)) = none := by
  obtain ⟨⟨t, e⟩, hshort, rfl⟩ := Option.map_eq_some_iff.mp h
  obtain ⟨r, hs, -, hline, hnext, hleast⟩ := shortestThen_some hshort
  obtain ⟨b, u, rfl, hb, hlen, hu⟩ := blanksThen_some hnext
  exact ⟨t, b, u, hs, rfl, hline, hb, hlen, hu, hleast⟩

theorem person?_email (h : person? s = some p) : Address p.email := by
  obtain ⟨t, b, u, -, -, -, -, -, hu, -⟩ := person?_some h
  exact (address?_some hu).1

theorem person?_trimmed (h : person? s = some p) (hne : p.name ≠ []) : Trimmed p.name := by
  obtain ⟨t, b, u, -, hname, hline, -⟩ := person?_some h
  rw [hname] at hne ⊢
  exact ⟨hne, fun hmem => hline (Text.mem_of_mem_strip hmem), Text.head_strip t, Text.last_strip t⟩

theorem person?_name_plain (h : person? s = some p) : Plain p.name := by
  obtain ⟨t, b, u, -, hname, -, hb, hlen, -, hleast⟩ := person?_some h
  obtain ⟨x, y, ht, -, hy⟩ := Text.exists_eq_strip t
  rw [← hname] at ht
  intro front back hsplit hf hback
  have hends : Ends (y ++ (b ++ u)) := by
    rcases b with _ | ⟨c, b⟩
    · simp at hlen
    · rcases y with _ | ⟨d, y⟩
      · rintro _ ⟨⟩
        exact hb c List.mem_cons_self
      · rintro _ ⟨⟩
        exact hy d List.mem_cons_self
  have hlast : ∀ c ∈ back.getLast?, isBlank c = false := by
    intro c hc
    have hstrip := Text.last_strip t
    rw [← hname, hsplit] at hstrip
    exact hstrip c (by rwa [List.getLast?_append_of_ne_nil _ hback])
  have hnone := hleast (x ++ front) (back ++ y) (by rw [ht, hsplit]; simp) (by simp [hf])
    (by simp [hback])
  rw [List.append_assoc, blanksThen_address?_append hback hlast hends] at hnone
  exact hnone

theorem blanksThen_person?_iff {least g h : Nat} (hname : Trimmed p.name) (he : Address p.email)
    (hg : least ≤ g) :
    blanksThen person? least (spaces g ++ (p.name ++ (spaces h ++ p.email))) = some p ↔
      2 ≤ h ∧ Plain p.name := by
  constructor
  · intro hread
    obtain ⟨b₀, s, hs, hb₀, -, hperson⟩ := blanksThen_some hread
    refine ⟨?_, person?_name_plain hperson⟩
    obtain ⟨t, b, u, rfl, hstrip, -, hb, hlen, hu, -⟩ := person?_some hperson
    obtain ⟨x, y, ht, hx, hy⟩ := Text.exists_eq_strip t
    rw [← hstrip] at ht
    obtain ⟨-, -, huhead⟩ := address?_some hu
    have hall : spaces g ++ (p.name ++ (spaces h ++ p.email)) =
        (b₀ ++ x) ++ (p.name ++ ((y ++ b) ++ u)) := by
      rw [hs, ht]
      simp only [List.append_assoc]
    obtain ⟨-, hrest⟩ := Text.blank_append_inj (Text.blank_spaces g) (hb₀.append hx)
      (hname.head_append _)
      (hname.head_append _) hall
    have hbehind := List.append_cancel_left hrest
    have hehead := he.word.head []
    rw [List.append_nil] at hehead
    obtain ⟨hspaces, -⟩ := Text.blank_append_inj (Text.blank_spaces h) (hy.append hb) hehead
      huhead hbehind
    have hlength := congrArg List.length hspaces
    simp only [spaces, List.length_replicate, List.length_append] at hlength
    omega
  · rintro ⟨hh, hplain⟩
    exact blanksThen_append (Text.blank_spaces g) (hname.head_append _) (by simpa [spaces] using hg)
      (person?_plain hname hplain he hh)

end Found
end Masthead.Header
