import Masthead.Proofs.Header.Legible

/-! How somebody is searched for on a line. The longest run of blanks is skipped that leaves
somebody to be found, and then the shortest name is taken that leaves an address two blanks behind
it. Who stands without a name is found all the same where the blanks are so many that one of them
can be taken for the name. -/

namespace Masthead.Header
open Text (Blank Ends isBlank)

section Runs
variable {α : Type} {next : Text → Option α} {s : Text}

theorem shortestThen_eq_none_iff (hs : '\n' ∉ s) :
    shortestThen next s = none ↔ ∀ front back, s = front ++ back → front ≠ [] →
    next back = none := by
  induction s with
  | nil =>
    refine iff_of_true rfl ?_
    intro front back hsplit hf
    exact absurd (List.append_eq_nil_iff.mp hsplit.symm).1 hf
  | cons c s ih =>
    have hc : c ≠ '\n' := fun h => hs (h ▸ List.mem_cons_self)
    have hcons : shortestThen next (c :: s) = none ↔
        next s = none ∧ shortestThen next s = none := by
      rw [shortestThen, if_neg hc]
      cases next s with
      | none => simp
      | some a => simp
    rw [hcons, ih fun h => hs (List.mem_cons_of_mem c h)]
    constructor
    · intro h front back hsplit hf
      obtain ⟨hnone, hrest⟩ := h
      obtain ⟨d, front, rfl⟩ := List.exists_cons_of_ne_nil hf
      obtain ⟨-, hs⟩ := List.cons.inj hsplit
      by_cases hfront : front = []
      · rwa [hs, hfront] at hnone
      · exact hrest front back hs hfront
    · intro h
      refine ⟨h [c] s rfl (by simp), ?_⟩
      intro front back hsplit _
      exact h (c :: front) back (by rw [hsplit, List.cons_append]) (by simp)

end Runs

section People
variable {b r s e : Text} {p : Contributor}

theorem person?_eq_none_iff (hs : '\n' ∉ s) : person? s = none ↔ Plain s := by
  rw [person?, Option.map_eq_none_iff, shortestThen_eq_none_iff hs]
  constructor
  · intro h front back hsplit hf _
    exact h front back hsplit hf
  · intro h front back hsplit hf
    by_cases hback : back = []
    · rw [hback, blanksThen, if_neg (by decide)]
    · exact h front back hsplit hf hback

theorem person?_name_ne_nil (hs : ∀ c ∈ s.head?, isBlank c = false) (h : person? s = some p) :
    p.name ≠ [] := by
  obtain ⟨⟨t, e⟩, hshort, rfl⟩ := Option.map_eq_some_iff.mp h
  obtain ⟨r, rfl, hne, -⟩ := shortestThen_some hshort
  intro hname
  obtain ⟨c, t, rfl⟩ := List.exists_cons_of_ne_nil hne
  have hblank := (Text.strip_isEmpty_iff (c :: t)).mp (List.isEmpty_iff.mpr hname)
  exact absurd (hblank c List.mem_cons_self) (by simp [hs c rfl])

theorem blanksThen_address?_blank (hb : Blank b) (hr : ∀ c ∈ r.head?, isBlank c = false) (n : Nat) :
    blanksThen address? n (b ++ r) = if n ≤ b.length then address? r else none := by
  induction b generalizing n with
  | nil =>
    rw [List.nil_append, blanksThen_solid hr]
    simp
  | cons c b ih =>
    obtain ⟨hc, hb⟩ := List.forall_mem_cons.mp hb
    rw [List.cons_append, blanksThen_cons hc, ih hb, address?_blank hc, ite_self, Option.or_none,
      List.length_cons]
    simp only [Nat.sub_le_iff_le_add]

theorem person?_cons {c : Char} (hc : isBlank c = true) (hline : c ≠ '\n') (s : Text) :
    person? (c :: s) = ((blanksThen address? 2 s).map (Contributor.mk [])).or (person? s) := by
  have hname : Text.strip [c] = [] := by simp [Text.strip, Text.stripLeft, Text.stripRight, hc]
  have hstrip (t : Text) : Text.strip (c :: t) = Text.strip t := by
    simp [Text.strip, Text.stripLeft, hc]
  rw [person?, person?, shortestThen, if_neg hline]
  cases blanksThen address? 2 s with
  | some e => simp [hname]
  | none => simp [Function.comp_def, hstrip]

theorem person?_blank (hb : Blank b) (hline : '\n' ∉ b) (hr : ∀ c ∈ r.head?, isBlank c = false) :
    person? (b ++ r) = (if 3 ≤ b.length then (address? r).map (Contributor.mk []) else none).or
    (person? r) := by
  induction b with
  | nil => simp
  | cons c b ih =>
    obtain ⟨hc, hb⟩ := List.forall_mem_cons.mp hb
    have hcline : c ≠ '\n' := fun h => hline (h ▸ List.mem_cons_self)
    rw [List.cons_append, person?_cons hc hcline, ih hb (List.not_mem_of_not_mem_cons hline),
      blanksThen_address?_blank hb hr, List.length_cons]
    by_cases hlength : 2 ≤ b.length
    · have hmore : 3 ≤ b.length + 1 := by omega
      rw [if_pos hlength, if_pos hmore]
      cases address? r with
      | none => simp
      | some e => rfl
    · have hmore : ¬ 3 ≤ b.length + 1 := by omega
      have hless : ¬ 3 ≤ b.length := by omega
      rw [if_neg hlength, if_neg hmore, if_neg hless]
      rfl

/-- Who is found behind a run of blanks is who is found where it ends; if there is nobody, it is who
has the address there, if three blanks are left to set it off from an empty name. -/
theorem blanksThen_person?_eq (hb : Blank b) (hline : '\n' ∉ b)
    (hr : ∀ c ∈ r.head?, isBlank c = false) (least : Nat) :
    blanksThen person? least (b ++ r) =
      if least ≤ b.length then
        (person? r).or (if least + 3 ≤ b.length then (address? r).map (Contributor.mk []) else none)
      else none := by
  induction b generalizing least with
  | nil =>
    rw [List.nil_append, blanksThen_solid hr]
    simp
  | cons c b ih =>
    have hperson := person?_blank hb hline hr
    obtain ⟨hc, hb⟩ := List.forall_mem_cons.mp hb
    rw [List.cons_append, blanksThen_cons hc, ih hb (List.not_mem_of_not_mem_cons hline)]
    cases least with
    | zero =>
      rw [← List.cons_append, hperson]
      cases person? r with
      | some p => simp
      | none =>
        by_cases hlength : 3 ≤ b.length
        · have hlonger : 2 ≤ b.length := by omega
          cases address? r with
          | none => simp
          | some e => simp [hlength, hlonger]
        · simp [hlength]
    | succ n => simp [Nat.add_right_comm n 1 3]

theorem blanksThen_person?_nameless (hs : '\n' ∉ s) {least : Nat} :
    blanksThen person? least s = some ⟨[], e⟩ ↔
      Address e ∧ ∃ b t, s = b ++ (e ++ t) ∧ Blank b ∧ least + 3 ≤ b.length ∧ Ends t ∧
      Plain (e ++ t) := by
  constructor
  · intro h
    obtain ⟨b, hb, hsplit⟩ := Text.exists_eq_stripLeft s
    have hr := Text.head_stripLeft s
    have hline : '\n' ∉ b ++ Text.stripLeft s := hsplit ▸ hs
    obtain ⟨hbline, hrline⟩ := not_or.mp (List.mem_append.not.mp hline)
    rw [hsplit, blanksThen_person?_eq hb hbline hr] at h
    split_ifs at h with hleast hmore
    · cases hperson : person? (Text.stripLeft s) with
      | some p =>
        rw [hperson] at h
        exact absurd (congrArg Contributor.name (Option.some.inj h))
          (person?_name_ne_nil hr hperson)
      | none =>
        rw [hperson, Option.none_or] at h
        obtain ⟨e', haddress, hp⟩ := Option.map_eq_some_iff.mp h
        obtain rfl : e' = e := congrArg Contributor.email hp
        obtain ⟨he, t, ht, hends⟩ := address?_eq_some_iff.mp haddress
        rw [ht] at hsplit
        exact ⟨he, b, t, hsplit, hb, hmore, hends, ht ▸ (person?_eq_none_iff hrline).mp hperson⟩
    · rw [Option.or_none] at h
      exact absurd rfl (person?_name_ne_nil hr h)
  · rintro ⟨he, b, t, rfl, hb, hlength, hends, hplain⟩
    obtain ⟨hbline, hrline⟩ := not_or.mp (List.mem_append.not.mp hs)
    rw [blanksThen_person?_eq hb hbline (he.word.head t), if_pos (by omega), if_pos hlength,
      (person?_eq_none_iff hrline).mpr hplain, address?_append he hends]
    rfl

end People
end Masthead.Header
