import Masthead.Header.Writing
import Masthead.Proofs.Text.Beginning
import Masthead.Proofs.Text.Decimal
import Mathlib.Data.List.Chain

/-! The parts that the lines of a header are made of. A part that is written the usual way is read
back as it was: runs of blanks, words, addresses, years, and a name with an address behind it. -/

namespace Masthead.Header
open Text (Blank Ends Word IsYear isBlank spaces)

section Runs
variable {α : Type} {next : Text → Option α}

theorem blanksThen_cons {c : Char} (hc : isBlank c = true) (least : Nat) (s : Text) :
    blanksThen next least (c :: s) =
      (blanksThen next (least - 1) s).or (if least = 0 then next (c :: s) else none) := by
  rw [blanksThen, if_pos hc]
  cases blanksThen next (least - 1) s with
  | none => rfl
  | some a => rfl

theorem blanksThen_solid {s : Text} (hs : ∀ c ∈ s.head?, isBlank c = false) (least : Nat) :
    blanksThen next least s = if least = 0 then next s else none := by
  cases s with
  | nil => rw [blanksThen]
  | cons c s => rw [blanksThen, if_neg (by simp [hs c rfl])]

theorem blanksThen_append {least : Nat} {b r : Text} {a : α} (hb : Blank b)
    (hr : ∀ c ∈ r.head?, isBlank c = false) (hl : least ≤ b.length) (hn : next r = some a) :
    blanksThen next least (b ++ r) = some a := by
  induction b generalizing least with
  | nil =>
    obtain rfl : least = 0 := by simpa using hl
    rw [List.nil_append, blanksThen_solid hr, if_pos rfl, hn]
  | cons c b ih =>
    obtain ⟨hc, hb⟩ := List.forall_mem_cons.mp hb
    have hrest : blanksThen next (least - 1) (b ++ r) = some a :=
      ih hb (by simp only [List.length_cons] at hl; omega)
    rw [List.cons_append, blanksThen_cons hc, hrest, Option.some_or]

theorem blanksThen_some {least : Nat} {s : Text} {a : α} (h : blanksThen next least s = some a) :
    ∃ b r, s = b ++ r ∧ Blank b ∧ least ≤ b.length ∧ next r = some a := by
  have here {s : Text} {least : Nat} (hn : (if least = 0 then next s else none) = some a) :
      ∃ b r, s = b ++ r ∧ Blank b ∧ least ≤ b.length ∧ next r = some a := by
    split_ifs at hn with hl
    exact ⟨[], s, rfl, by simp [Blank], by simp [hl], hn⟩
  induction s generalizing least with
  | nil =>
    rw [blanksThen] at h
    exact here h
  | cons c s ih =>
    by_cases hc : isBlank c = true
    · rw [blanksThen_cons hc] at h
      rcases Option.or_eq_some_iff.mp h with hrest | ⟨-, hn⟩
      · obtain ⟨b, r, rfl, hb, hlen, hn⟩ := ih hrest
        refine ⟨c :: b, r, rfl, List.forall_mem_cons.mpr ⟨hc, hb⟩, ?_, hn⟩
        simp only [List.length_cons]
        omega
      · exact here hn
    · rw [blanksThen, if_neg hc] at h
      exact here h

theorem shortestThen_append {s r : Text} {a : α} (hs : s ≠ []) (hline : '\n' ∉ s)
    (hr : next r = some a)
    (hmin : ∀ front back, s = front ++ back → front ≠ [] → back ≠ [] → next (back ++ r) = none) :
    shortestThen next (s ++ r) = some (s, a) := by
  induction s with
  | nil => exact absurd rfl hs
  | cons c s ih =>
    have hc : c ≠ '\n' := fun h => hline (h ▸ List.mem_cons_self)
    by_cases hnil : s = []
    · subst hnil
      simp [shortestThen, hc, hr]
    · have hnone : next (s ++ r) = none := hmin [c] s rfl (by simp) hnil
      have hrest : shortestThen next (s ++ r) = some (s, a) := by
        refine ih hnil (fun h => hline (List.mem_cons_of_mem _ h)) ?_
        rintro front back rfl hf hb
        exact hmin (c :: front) back rfl (by simp) hb
      simp [shortestThen, hc, hnone, hrest]

theorem shortestThen_some {s t : Text} {a : α} (h : shortestThen next s = some (t, a)) :
    ∃ r, s = t ++ r ∧ t ≠ [] ∧ '\n' ∉ t ∧ next r = some a ∧
      ∀ front back, t = front ++ back → front ≠ [] → back ≠ [] → next (back ++ r) = none := by
  induction s generalizing t with
  | nil => simp [shortestThen] at h
  | cons c s ih =>
    rw [shortestThen] at h
    split_ifs at h with hc
    cases hs : next s with
    | some x =>
      rw [hs] at h
      cases h
      refine ⟨s, rfl, by simp, by simpa using Ne.symm hc, hs, ?_⟩
      intro front back hsplit hf hb
      rcases front with _ | ⟨d, front⟩
      · exact absurd rfl hf
      · simp only [List.cons_append, List.cons.injEq, List.nil_eq, List.append_eq_nil_iff] at hsplit
        exact absurd hsplit.2.2 hb
    | none =>
      rw [hs] at h
      obtain ⟨⟨u, x⟩, hu, hx⟩ := Option.map_eq_some_iff.mp h
      cases hx
      obtain ⟨r, rfl, -, hline, hn, hleast⟩ := ih hu
      refine ⟨r, rfl, by simp, by simpa [hline] using Ne.symm hc, hn, ?_⟩
      intro front back hsplit hf hb
      rcases front with _ | ⟨d, front⟩
      · exact absurd rfl hf
      · simp only [List.cons_append, List.cons.injEq] at hsplit
        by_cases hfront : front = []
        · rw [← hs, hsplit.2, hfront, List.nil_append]
        · exact hleast front back hsplit.2 hfront hb

end Runs

theorem word_append_ends (s : Text) {t : Text} (ht : Ends t) : word (s ++ t) = word s := by
  induction s with
  | nil =>
    cases t with
    | nil => rfl
    | cons c t => simp [word, ht c rfl]
  | cons c s ih =>
    simp only [word, List.cons_append, List.takeWhile_cons] at ih ⊢
    rw [ih]

theorem word_append {w t : Text} (hw : ∀ c ∈ w, isBlank c = false) (ht : Ends t) :
    word (w ++ t) = w := by
  rw [word_append_ends w ht, word, List.takeWhile_eq_self_iff]
  simpa using hw

theorem afterWord_append {w t : Text} (hw : ∀ c ∈ w, isBlank c = false) (ht : Ends t) :
    afterWord (w ++ t) = t := by
  rw [afterWord, List.dropWhile_append_of_pos (by simpa using hw)]
  cases t with
  | nil => rfl
  | cons c t => simp [ht c rfl]

structure Address (e : Text) : Prop where
  solid : ∀ c ∈ e, isBlank c = false
  sign : ∃ front back, front ≠ [] ∧ back ≠ [] ∧ e = front ++ '@' :: back

theorem Address.word {e : Text} (h : Address e) : Word e := by
  obtain ⟨front, back, -, -, he⟩ := h.sign
  exact ⟨by simp [he], h.solid⟩

theorem Address.isAddress {e : Text} (h : Address e) : isAddress e = true := by
  obtain ⟨front, back, hf, hb, rfl⟩ := h.sign
  obtain ⟨c, front, rfl⟩ := List.exists_cons_of_ne_nil hf
  rw [Header.isAddress, List.cons_append, List.tail_cons,
    List.dropLast_append_of_ne_nil (by simp), List.dropLast_cons_of_ne_nil hb]
  simp

theorem address_of_isAddress {e : Text} (h : Header.isAddress e = true)
    (hs : ∀ c ∈ e, isBlank c = false) : Address e := by
  refine ⟨hs, ?_⟩
  have hmem : '@' ∈ e.tail.dropLast := by simpa [Header.isAddress] using h
  obtain ⟨front, back, hsplit⟩ := List.append_of_mem hmem
  cases e with
  | nil => simp at hmem
  | cons c w =>
    rcases List.eq_nil_or_concat w with rfl | ⟨u, d, rfl⟩
    · simp at hmem
    · rw [List.tail_cons, List.concat_eq_append, List.dropLast_concat] at hsplit
      exact ⟨c :: front, back ++ [d], by simp, by simp, by simp [hsplit]⟩

instance (e : Text) : Decidable (Address e) :=
  decidable_of_iff (Header.isAddress e = true ∧ Word e)
    ⟨fun h => address_of_isAddress h.1 h.2.solid, fun h => ⟨h.isAddress, h.word⟩⟩

theorem address?_append {e t : Text} (he : Address e) (ht : Ends t) :
    address? (e ++ t) = some e := by
  rw [address?, word_append he.solid ht, if_pos he.isAddress]

theorem mem_of_address?_some {s e : Text} (h : address? s = some e) : '@' ∈ s := by
  rw [address?] at h
  split_ifs at h with ha
  have hmem : '@' ∈ (word s).tail.dropLast := by simpa [isAddress] using ha
  exact (List.takeWhile_subset _) (List.mem_of_mem_tail (List.dropLast_subset _ hmem))

structure Name (s : Text) : Prop where
  ne_nil : s ≠ []
  line : '\n' ∉ s
  head : ∀ c ∈ s.head?, isBlank c = false
  last : ∀ c ∈ s.getLast?, isBlank c = false
  single : s.IsChain fun c d => ¬ (isBlank c = true ∧ isBlank d = true)

instance (s : Text) : Decidable (Name s) :=
  decidable_of_iff (s ≠ [] ∧ '\n' ∉ s ∧ s.head?.any isBlank = false ∧
    s.getLast?.any isBlank = false ∧
      s.IsChain fun c d => ¬ (isBlank c = true ∧ isBlank d = true))
    ⟨fun ⟨hn, hl, hh, ht, hs⟩ => ⟨hn, hl, (Text.solid_end_iff _).mpr hh,
      (Text.solid_end_iff _).mpr ht, hs⟩,
      fun h => ⟨h.ne_nil, h.line, (Text.solid_end_iff _).mp h.head,
      (Text.solid_end_iff _).mp h.last,
        h.single⟩⟩

theorem mem_of_person?_some {s : Text} {p : Contributor} (h : person? s = some p) : '@' ∈ s := by
  rw [person?] at h
  obtain ⟨⟨name, e⟩, hshort, -⟩ := Option.map_eq_some_iff.mp h
  obtain ⟨r, rfl, -, -, hnext, -⟩ := shortestThen_some hshort
  obtain ⟨b, u, rfl, -, -, ha⟩ := blanksThen_some hnext
  simp [mem_of_address?_some ha]

structure Year (y : Text) (n : Nat) : Prop where
  length : y.length = 4
  value : Text.decimal? y = some n

inductive Years : Nat → Nat → Text → Prop where
  | one {y : Text} {n : Nat} (hy : Year y n) : Years n n y
  | two {y z : Text} {n m : Nat} (hy : Year y n) (hz : Year z m) : Years n m (y ++ '-' :: z)

section Years
variable {s t years : Text} {first last n : Nat}

theorem year?_eq_some_iff : year? s = some (n, t) ↔ ∃ y, s = y ++ t ∧ Year y n := by
  constructor
  · intro h
    rcases s with _ | ⟨a, _ | ⟨b, _ | ⟨c, _ | ⟨d, s⟩⟩⟩⟩
    all_goals try cases h
    obtain ⟨m, hm, hpair⟩ := Option.map_eq_some_iff.mp h
    obtain ⟨rfl, rfl⟩ := Prod.mk.inj hpair
    exact ⟨[a, b, c, d], rfl, rfl, hm⟩
  · rintro ⟨y, rfl, hlength, hvalue⟩
    obtain ⟨a, b, c, d, rfl⟩ := List.length_eq_four.mp hlength
    simp [year?, hvalue]

theorem Year.head {y : Text} (h : Year y n) (t : Text) : ∀ c ∈ (y ++ t).head?, isBlank c = false :=
  (Text.word_of_decimal? (Option.isSome_of_eq_some h.value)).head t

theorem Years.head (h : Years first last years) (t : Text) :
    ∀ c ∈ (years ++ t).head?, isBlank c = false := by
  cases h with
  | one hy => exact hy.head t
  | two hy hz =>
    rw [List.append_assoc]
    exact hy.head _

theorem Years.yearSpan?_append (h : Years first last years) (ht : Ends t) :
    yearSpan? (years ++ t) = some (first, last, t) := by
  cases h with
  | one hy =>
    have hread : year? (years ++ t) = some (first, t) := year?_eq_some_iff.mpr ⟨years, rfl, hy⟩
    rw [yearSpan?, hread]
    cases t with
    | nil => rfl
    | cons c t =>
      have hc : c ≠ '-' := by
        rintro rfl
        exact absurd (ht '-' rfl) (by decide)
      simp [hc]
  | @two y z n m hy hz =>
    have hread : year? (y ++ '-' :: z ++ t) = some (first, '-' :: (z ++ t)) :=
      year?_eq_some_iff.mpr ⟨y, by simp, hy⟩
    have hrest : year? (z ++ t) = some (last, t) := year?_eq_some_iff.mpr ⟨z, rfl, hz⟩
    rw [yearSpan?, hread]
    simp [hrest]

theorem exists_years (h : yearSpan? s = some (first, last, t)) :
    ∃ years, s = years ++ t ∧ Years first last years := by
  rw [yearSpan?] at h
  split at h
  · cases h
  · next n rest hyear =>
    obtain ⟨⟨m, r⟩, hrest, hpair⟩ := Option.map_eq_some_iff.mp h
    cases hpair
    obtain ⟨y, rfl, hy⟩ := year?_eq_some_iff.mp hyear
    obtain ⟨z, rfl, hz⟩ := year?_eq_some_iff.mp hrest
    exact ⟨y ++ '-' :: z, by simp, .two hy hz⟩
  · next n rest _ hyear =>
    cases h
    obtain ⟨y, rfl, hy⟩ := year?_eq_some_iff.mp hyear
    exact ⟨y, rfl, .one hy⟩

end Years

theorem year_ofInt {y : Int} (hy : IsYear y) : Year (Text.ofInt y) y.toNat := by
  refine ⟨Text.length_ofInt hy, ?_⟩
  rw [Text.ofInt_eq_ofNat (by have := hy.1; omega), Text.decimal?_ofNat]

theorem years_yearText {first : Int} {last : Option Int} (hf : IsYear first)
    (hl : ∀ y ∈ last, IsYear y) :
    Years first.toNat (last.getD first).toNat (yearText first last) := by
  cases last with
  | none => exact .one (year_ofInt hf)
  | some y =>
    rw [yearText]
    split_ifs with hy
    · rw [Option.getD_some, hy]
      exact .one (year_ofInt hf)
    · rw [List.append_assoc]
      exact .two (year_ofInt hf) (year_ofInt (hl y rfl))

theorem word_yearText (first : Int) (last : Option Int) : Word (yearText first last) := by
  have hf := Text.word_ofInt first
  cases last with
  | none => exact hf
  | some y =>
    rw [yearText]
    split_ifs
    · exact hf
    · refine ⟨by simp [hf.ne_nil], fun c hc => ?_⟩
      simp only [List.mem_append] at hc
      rcases hc with (hc | hc) | hc
      · exact hf.solid c hc
      · obtain rfl : c = '-' := by simpa using hc
        decide
      · exact (Text.word_ofInt y).solid c hc

theorem length_yearText_le {first : Int} {last : Option Int} (hf : IsYear first)
    (hl : ∀ y ∈ last, IsYear y) : (yearText first last).length ≤ 9 := by
  have hlen := Text.length_ofInt hf
  cases last with
  | none => simp [yearText, hlen]
  | some y =>
    rw [yearText]
    split_ifs
    · omega
    · simp [hlen, Text.length_ofInt (hl y rfl)]

theorem yearText_natCast (a b : Nat) :
    yearText a (some (b : Int)) = if b = a then Text.ofNat a else Text.ofNat a ++ '-' ::
    Text.ofNat b := by
  have hwords : "-".toList = ['-'] := by simp
  simp only [yearText, Int.natCast_inj, hwords, List.append_assoc]
  rfl

theorem yearText_injective {a b a' b' : Int} (ha : 0 ≤ a) (hb : 0 ≤ b) (ha' : 0 ≤ a') (hb' : 0 ≤ b')
    (h : yearText a (some b) = yearText a' (some b')) : a = a' ∧ b = b' := by
  lift a to Nat using ha
  lift b to Nat using hb
  lift a' to Nat using ha'
  lift b' to Nat using hb'
  rw [yearText_natCast, yearText_natCast] at h
  split_ifs at h with hone hone' hone'
  · have haa := Text.ofNat_injective h
    omega
  · exact absurd (h ▸ List.mem_append_right _ List.mem_cons_self) (Text.dash_notMem_ofNat a)
  · exact absurd (h ▸ List.mem_append_right _ List.mem_cons_self) (Text.dash_notMem_ofNat a')
  · obtain ⟨hfirst, -, hlast⟩ :=
      (List.append_cons_inj_of_notMem (Text.dash_notMem_ofNat a) (Text.dash_notMem_ofNat b)).mp h
    have haa := Text.ofNat_injective hfirst
    have hbb := Text.ofNat_injective hlast
    omega

end Masthead.Header
