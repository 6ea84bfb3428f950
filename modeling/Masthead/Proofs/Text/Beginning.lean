import Masthead.Text.Case
import Mathlib.Data.List.DropRight
import Mathlib.Data.List.Forall2

/-! What a text begins with: blanks, and given words with and without regard to case. -/

namespace Masthead.Text

-- Evaluates over the characters of the text: an instance found for `∀ c ∈ s` may go through all
-- there are.
theorem forall_mem_of_all {s : Text} {p : Char → Prop} [DecidablePred p] (h : s.all (p ·) = true) :
    ∀ c ∈ s, p c := by
  simpa using h

-- A literal is taken apart character by character, which is slow; the list that it stands for is
-- decided at once.
theorem not_mem_ofList {c : Char} {s : List Char} (h : c ∉ s) : c ∉ (String.ofList s).toList := by
  rwa [String.toList_ofList]

theorem drop?_append (s t : Text) : drop? s (s ++ t) = some t := by
  induction s with
  | nil => rfl
  | cons c s ih => simp [drop?, ih]

theorem drop?_eq_some {s t r : Text} (h : drop? s t = some r) : t = s ++ r := by
  induction s generalizing t with
  | nil =>
    cases h
    rfl
  | cons c s ih =>
    cases t with
    | nil => simp [drop?] at h
    | cons d t =>
      by_cases hcd : c = d
      · subst hcd
        rw [drop?, if_pos rfl] at h
        rw [ih h, List.cons_append]
      · simp [drop?, hcd] at h

theorem sameLetter_self (c : Char) : sameLetter c c = true := by simp [sameLetter]

theorem dropIgnoringCase?_cons_ne {p c : Char} (h : sameLetter p c = false) (s t : Text) :
    dropIgnoringCase? (p :: s) (c :: t) = none := by
  rw [dropIgnoringCase?, if_neg (by simp [h])]

def Alike (word s : Text) : Prop := List.Forall₂ (fun letter c => sameLetter letter c = true) word s

theorem alike_self (s : Text) : Alike s s := List.forall₂_same.mpr fun c _ => sameLetter_self c

theorem dropIgnoringCase?_eq_some_iff {start s t : Text} :
    dropIgnoringCase? start s = some t ↔ ∃ front, s = front ++ t ∧ Alike start front := by
  induction start generalizing s with
  | nil =>
    constructor
    · intro h
      exact ⟨[], Option.some.inj h, .nil⟩
    · rintro ⟨front, rfl, hfront⟩
      cases hfront
      rfl
  | cons p start ih =>
    cases s with
    | nil =>
      refine iff_of_false (by simp [dropIgnoringCase?]) ?_
      rintro ⟨front, hs, hfront⟩
      cases hfront
      cases hs
    | cons c s =>
      rw [dropIgnoringCase?]
      constructor
      · intro h
        split_ifs at h with hc
        obtain ⟨front, rfl, hfront⟩ := ih.mp h
        exact ⟨c :: front, rfl, .cons hc hfront⟩
      · rintro ⟨front, hs, hfront⟩
        cases hfront with
        | cons hc hfront =>
          obtain ⟨rfl, hrest⟩ := List.cons.inj hs
          rw [if_pos hc]
          exact ih.mpr ⟨_, hrest, hfront⟩

theorem Alike.drop {start front : Text} (h : Alike start front) (t : Text) :
    dropIgnoringCase? start (front ++ t) = some t :=
  dropIgnoringCase?_eq_some_iff.mpr ⟨front, rfl, h⟩

theorem dropIgnoringCase?_append (s t : Text) : dropIgnoringCase? s (s ++ t) = some t :=
  (alike_self s).drop t

theorem length_of_dropIgnoringCase? {start s r : Text} (h : dropIgnoringCase? start s = some r) :
    start.length + r.length = s.length := by
  obtain ⟨front, rfl, hfront⟩ := dropIgnoringCase?_eq_some_iff.mp h
  rw [List.length_append, hfront.length_eq]

theorem dropIgnoringCase?_start (a b s : Text) :
    dropIgnoringCase? (a ++ b) s = (dropIgnoringCase? a s).bind (dropIgnoringCase? b) := by
  induction a generalizing s with
  | nil => rfl
  | cons p a ih =>
    cases s with
    | nil => rfl
    | cons c s =>
      simp only [List.cons_append, dropIgnoringCase?]
      split
      · exact ih s
      · rfl

theorem dropIgnoringCase?_append_none {start s : Text} {c : Char} (t : Text)
    (h : dropIgnoringCase? start s = none) (hc : ∀ p ∈ start, sameLetter p c = false) :
    dropIgnoringCase? start (s ++ c :: t) = none := by
  induction start generalizing s with
  | nil => simp [dropIgnoringCase?] at h
  | cons p start ih =>
    cases s with
    | nil => exact dropIgnoringCase?_cons_ne (hc p List.mem_cons_self) start t
    | cons d s =>
      simp only [dropIgnoringCase?, List.cons_append] at h ⊢
      split at h
      · rw [if_pos ‹_›]
        exact ih h fun q hq => hc q (List.mem_cons_of_mem _ hq)
      · rw [if_neg ‹_›]

/-! Blanks -/

def Blank (s : Text) : Prop := ∀ c ∈ s, isBlank c = true

structure Word (s : Text) : Prop where
  ne_nil : s ≠ []
  solid : ∀ c ∈ s, isBlank c = false

instance (s : Text) : Decidable (Word s) :=
  decidable_of_iff (s ≠ [] ∧ s.all (!isBlank ·) = true)
    ⟨fun ⟨hne, hs⟩ => ⟨hne, by simpa using hs⟩, fun h => ⟨h.ne_nil, by simpa using h.solid⟩⟩

theorem solid_end_iff (o : Option Char) : (∀ c ∈ o, isBlank c = false) ↔ o.any isBlank = false := by
  cases o <;> simp

def Ends (s : Text) : Prop := ∀ c ∈ s.head?, isBlank c = true

theorem ends_nil : Ends [] := by simp [Ends]

theorem Ends.of_prefix {s t : Text} (ht : Ends t) (h : s <+: t) : Ends s := by
  obtain ⟨r, rfl⟩ := h
  cases s with
  | nil => exact ends_nil
  | cons c s => exact fun d hd => ht d hd

def blankCodes : List Nat := [
  9, 10, 11, 12, 13, 28, 29, 30, 31, 32, 0x85, 0xa0, 0x1680, 0x2000, 0x2001, 0x2002, 0x2003, 0x2004,
  0x2005, 0x2006, 0x2007,
  0x2008, 0x2009, 0x200a, 0x2028, 0x2029, 0x202f, 0x205f, 0x3000
]

theorem mem_blankCodes {c : Char} (h : isBlank c = true) : c.toNat ∈ blankCodes := by
  simp only [isBlank, Bool.or_eq_true, Bool.and_eq_true, decide_eq_true_eq, beq_iff_eq] at h
  simp only [blankCodes, List.mem_cons, List.not_mem_nil, or_false]
  omega

theorem solid_of_sameLetter {p c : Char} (hp : p = 'C' ∨ p = '(') (h : sameLetter p c = true) :
    isBlank c = false := by
  have hcodes : ∀ n ∈ blankCodes, sameLetter 'C' (Char.ofNat n) = false ∧
      sameLetter '(' (Char.ofNat n) = false := by decide
  rw [Bool.eq_false_iff]
  intro hblank
  obtain ⟨hletter, hbracket⟩ := hcodes c.toNat (mem_blankCodes hblank)
  rw [Char.ofNat_toNat] at hletter hbracket
  rcases hp with rfl | rfl
  · simp [hletter] at h
  · simp [hbracket] at h

theorem Alike.head {p : Char} {word s : Text} (h : Alike (p :: word) s) (hp : p = 'C' ∨ p = '(')
    (t : Text) :
    ∀ c ∈ (s ++ t).head?, isBlank c = false := by
  cases h with
  | cons hc _ =>
    rintro d ⟨⟩
    exact solid_of_sameLetter hp hc

theorem Word.line {s : Text} (h : Word s) : '\n' ∉ s := by
  intro hs
  exact absurd (h.solid _ hs) (by decide)

theorem blank_spaces (n : Nat) : Blank (spaces n) := by
  intro c hc
  rw [List.eq_of_mem_replicate hc]
  decide

theorem ends_spaces {n : Nat} (hn : 0 < n) (t : Text) : Ends (spaces n ++ t) := by
  obtain ⟨n, rfl⟩ := Nat.exists_eq_add_of_lt hn
  rw [Nat.zero_add, spaces, List.replicate_succ]
  rintro c ⟨⟩
  decide

theorem stripLeft_blank_append {b : Text} (hb : Blank b) (t : Text) :
    stripLeft (b ++ t) = stripLeft t := by
  rw [stripLeft, List.dropWhile_append_of_pos hb, stripLeft]

theorem stripLeft_eq_self {s : Text} (h : ∀ c ∈ s.head?, isBlank c = false) :
    stripLeft s = s := by
  cases s with
  | nil => rfl
  | cons c s => rw [stripLeft, List.dropWhile_cons_of_neg (by simp [h c rfl])]

theorem stripLeft_spaces_append (n : Nat) {t : Text} (h : ∀ c ∈ t.head?, isBlank c = false) :
    stripLeft (spaces n ++ t) = t := by
  rw [stripLeft_blank_append (blank_spaces n), stripLeft_eq_self h]

theorem stripRight_eq_self {s : Text} (h : ∀ c ∈ s.getLast?, isBlank c = false) :
    stripRight s = s := by
  refine List.rdropWhile_eq_self_iff.mpr fun hs => ?_
  simp [h _ (List.getLast?_eq_getLast_of_ne_nil hs)]

theorem strip_eq_self {s : Text} (hh : ∀ c ∈ s.head?, isBlank c = false)
    (hl : ∀ c ∈ s.getLast?, isBlank c = false) : strip s = s := by
  rw [strip, stripLeft_eq_self hh, stripRight_eq_self hl]

theorem Blank.append {s t : Text} (hs : Blank s) (ht : Blank t) : Blank (s ++ t) := by
  intro c hc
  rcases List.mem_append.mp hc with hc | hc
  · exact hs c hc
  · exact ht c hc

theorem blank_append_inj {a b s t : Text} (ha : Blank a) (hb : Blank b)
    (hs : ∀ c ∈ s.head?, isBlank c = false) (ht : ∀ c ∈ t.head?, isBlank c = false)
    (h : a ++ s = b ++ t) : a = b ∧ s = t := by
  have hrest : s = t := by
    have hleft := congrArg stripLeft h
    rwa [stripLeft_blank_append ha, stripLeft_blank_append hb, stripLeft_eq_self hs,
      stripLeft_eq_self ht] at hleft
  subst hrest
  exact ⟨List.append_cancel_right h, rfl⟩

theorem head_stripLeft (s : Text) : ∀ c ∈ (stripLeft s).head?, isBlank c = false := by
  intro c hc
  have hne : stripLeft s ≠ [] := by
    intro hnil
    simp [hnil] at hc
  have hhead := List.head_dropWhile_not isBlank hne
  rw [List.head?_eq_some_head hne] at hc
  obtain rfl := Option.some.inj hc
  exact hhead

theorem stripRight_eq_reverse (s : Text) : stripRight s = (stripLeft s.reverse).reverse := rfl

theorem last_stripRight (s : Text) : ∀ c ∈ (stripRight s).getLast?, isBlank c = false := by
  intro c hc
  rw [stripRight_eq_reverse, List.getLast?_reverse] at hc
  exact head_stripLeft s.reverse c hc

theorem exists_eq_stripLeft (s : Text) : ∃ b, Blank b ∧ s = b ++ stripLeft s :=
  ⟨s.takeWhile isBlank, fun _ hc => List.mem_takeWhile_imp hc, List.takeWhile_append_dropWhile.symm⟩

theorem exists_eq_stripRight (s : Text) : ∃ b, Blank b ∧ s = stripRight s ++ b := by
  obtain ⟨b, hb, hs⟩ := exists_eq_stripLeft s.reverse
  refine ⟨b.reverse, fun c hc => hb c (List.mem_reverse.mp hc), ?_⟩
  have hreverse := congrArg List.reverse hs
  rwa [List.reverse_reverse, List.reverse_append] at hreverse

theorem exists_eq_strip (s : Text) : ∃ a b, s = a ++ (strip s ++ b) ∧ Blank a ∧ Blank b := by
  obtain ⟨a, ha, hleft⟩ := exists_eq_stripLeft s
  obtain ⟨b, hb, hright⟩ := exists_eq_stripRight (stripLeft s)
  exact ⟨a, b, by rw [strip, ← hright, ← hleft], ha, hb⟩

theorem mem_of_mem_strip {s : Text} {x : Char} (h : x ∈ strip s) : x ∈ s := by
  obtain ⟨a, b, hs, -, -⟩ := exists_eq_strip s
  rw [hs]
  exact List.mem_append_right a (List.mem_append_left b h)

theorem head_strip (s : Text) : ∀ c ∈ (strip s).head?, isBlank c = false := by
  intro c hc
  obtain ⟨b, -, hright⟩ := exists_eq_stripRight (stripLeft s)
  have hne : stripRight (stripLeft s) ≠ [] := by
    intro hnil
    simp [strip, hnil] at hc
  refine head_stripLeft s c ?_
  rw [hright, List.head?_append_of_ne_nil _ hne]
  exact hc

theorem last_strip (s : Text) : ∀ c ∈ (strip s).getLast?, isBlank c = false := last_stripRight _

theorem Word.head {s : Text} (h : Word s) (t : Text) :
    ∀ c ∈ (s ++ t).head?, isBlank c = false := by
  cases s with
  | nil => exact absurd rfl h.ne_nil
  | cons c s =>
    rintro d ⟨⟩
    exact h.solid _ List.mem_cons_self

theorem Word.last {s : Text} (h : Word s) : ∀ c ∈ s.getLast?, isBlank c = false :=
  fun c hc => h.solid c (List.mem_of_getLast? hc)

theorem strip_isEmpty_iff (s : Text) : (strip s).isEmpty = true ↔ Blank s := by
  rw [List.isEmpty_iff, strip, stripRight]
  constructor
  · intro h
    have hs : Blank (stripLeft s) := by
      intro c hc
      have hr := List.dropWhile_eq_nil_iff.mp (List.reverse_eq_nil_iff.mp h)
      exact hr c (List.mem_reverse.mpr hc)
    intro c hc
    rw [← List.takeWhile_append_dropWhile (p := isBlank) (l := s)] at hc
    rcases List.mem_append.mp hc with hc | hc
    · exact List.mem_takeWhile_imp hc
    · exact hs c hc
  · intro h
    rw [stripLeft, List.dropWhile_eq_nil_iff.mpr h]
    rfl

theorem stripRight_append_blank {b : Text} (hb : Blank b) (s : Text) :
    stripRight (s ++ b) = stripRight s := by
  have hreverse : Blank b.reverse := fun c hc => hb c (List.mem_reverse.mp hc)
  rw [stripRight_eq_reverse, List.reverse_append, stripLeft_blank_append hreverse,
    ← stripRight_eq_reverse]

theorem strip_append_blank {b : Text} (hb : Blank b) (s : Text) : strip (s ++ b) = strip s := by
  rw [strip, strip, stripLeft, List.dropWhile_append]
  split_ifs with hs
  · rw [List.dropWhile_eq_nil_iff.mpr hb, stripLeft, List.isEmpty_iff.mp hs]
  · exact stripRight_append_blank hb _

theorem strip_stripRight (s : Text) : strip (stripRight s) = strip s := by
  obtain ⟨b, hb, hs⟩ := exists_eq_stripRight s
  conv_rhs => rw [hs, strip_append_blank hb]

end Masthead.Text
