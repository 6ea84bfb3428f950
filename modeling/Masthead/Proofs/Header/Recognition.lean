import Masthead.Proofs.Header.Usable
import Masthead.Proofs.Layout.Placement

/-! What the lines of a header are taken for. A separator line is a separator and no other line is;
the lines that credit contributors say who they credit, and the first one the years; the license
line credits nobody. -/

namespace Masthead.Header
open Text (Alike Blank Ends Word IsYear isBlank spaces)

theorem chop_isPrefix (s : Text) : chop s <+: s := List.rdropWhile_prefix _ s

theorem chop_eq_self {s : Text} (h : ∀ c ∈ s.getLast?, c ≠ '\r') : chop s = s := by
  refine List.rdropWhile_eq_self_iff.mpr fun hs => ?_
  simpa using h _ (List.getLast?_eq_getLast_of_ne_nil hs)

theorem chop_append_cons (s : Text) {c : Char} (hc : c ≠ '\r') (t : Text) :
    chop (s ++ c :: t) = s ++ c :: chop t := by
  unfold chop
  rw [List.reverse_append, List.reverse_cons, List.append_assoc, List.dropWhile_append]
  split_ifs with h
  · rw [List.isEmpty_iff.mp h, List.singleton_append,
      List.dropWhile_cons_of_neg (by simpa using hc)]
    simp
  · simp

theorem chop_append_solid {s : Text} (hne : s ≠ []) (hl : ∀ c ∈ s.getLast?, isBlank c = false)
    (t : Text) :
    chop (s ++ t) = s ++ chop t := by
  obtain ⟨front, x, rfl⟩ : ∃ front x, s = front ++ [x] := by
    rcases List.eq_nil_or_concat s with rfl | ⟨front, x, rfl⟩
    · exact absurd rfl hne
    · exact ⟨front, x, List.concat_eq_append⟩
  have hx : x ≠ '\r' := by
    rintro rfl
    exact absurd (hl '\r' (by simp)) (by decide)
  rw [List.append_assoc, List.singleton_append, chop_append_cons front hx t]
  simp

theorem chop_append_word (s : Text) {w : Text} (hw : Word w) : chop (s ++ w) = s ++ w := by
  have hl : ∀ c ∈ (s ++ w).getLast?, isBlank c = false := by
    rw [List.getLast?_append_of_ne_nil _ hw.ne_nil]
    exact hw.last
  have h := chop_append_solid (by simp [hw.ne_nil]) hl []
  rwa [List.append_nil, show chop [] = [] from rfl, List.append_nil] at h

theorem body?_append (d : Dialect) (t : Text) : body? d (d.commentPrefix ++ t) = some t :=
  Text.dropIgnoringCase?_append _ _

theorem continuation?_append {d : Dialect} (hd : 0 ≤ d.indent) (t : Text) :
    continuation? d (d.commentPrefix ++ t) =
      (blanksThen person? d.indent.toNat t).map Line.continuation := by
  simp only [continuation?, Text.drop?_append, Option.bind_eq_bind, Option.bind_some]
  rw [if_neg (by omega)]
  cases blanksThen person? d.indent.toNat t with
  | none => rfl
  | some who => rfl

/-! Separators -/

section Separators
variable {c : Config} {d : Dialect}

theorem separatorLine_eq (hc : c.Ruled) :
    ∃ fill, fill ≠ [] ∧ (∀ x ∈ fill, x ∈ Config.separatorChars) ∧
      separatorLine c = c.commentPrefix ++ fill := by
  obtain ⟨n, hn⟩ : ∃ n, (c.width - c.commentPrefix.length).toNat = n + 1 :=
    Nat.exists_eq_succ_of_ne_zero (by have := hc.wide; omega)
  refine ⟨(List.replicate (n + 1) c.separatorChar).flatten, ?_, ?_, ?_⟩
  · simp [List.replicate_succ, hc.fill_ne]
  · intro x hx
    obtain ⟨l, hl, hx⟩ := List.mem_flatten.mp hx
    rw [List.eq_of_mem_replicate hl] at hx
    exact hc.fill x hx
  · simp [separatorLine, Layout.separator, hc.fill_ne, hn]

theorem line_separatorLine (hc : c.Ruled) (hsign : '\n' ∉ c.commentPrefix) :
    '\n' ∉ separatorLine c := by
  obtain ⟨fill, -, hfill, heq⟩ := separatorLine_eq hc
  rw [heq, List.mem_append, not_or]
  exact ⟨hsign, fun h => absurd (hfill _ h) (by decide)⟩

theorem isSeparator_fill {fill : Text} (hne : fill ≠ [])
    (hf : ∀ x ∈ fill, x ∈ Config.separatorChars) :
    isSeparator d (d.commentPrefix ++ fill) = true := by
  have htake : fill.takeWhile (· ∈ Config.separatorChars) = fill := by
    simpa using hf
  simp only [isSeparator, Text.drop?_append, htake, List.drop_length]
  simpa using hne

theorem classify_separatorLine (hc : c.Ruled) (hd : d.commentPrefix = c.commentPrefix) :
    classify d (separatorLine c) = .separator := by
  obtain ⟨fill, hne, hfill, heq⟩ := separatorLine_eq hc
  have hchop : chop (separatorLine c) = separatorLine c := by
    refine chop_eq_self fun x hx => ?_
    rw [heq, List.getLast?_append_of_ne_nil _ hne] at hx
    rintro rfl
    exact absurd (hfill _ (List.mem_of_getLast? hx)) (by decide)
  rw [classify, hchop, heq, ← hd, isSeparator_fill hne hfill, if_pos rfl]

end Separators

/-! What each reading of a line can give -/

/-- What stands in front of the people on a line with years: the comment sign and the words of a
copyright notice, letters taken up to case, and the years. -/
inductive Notice (d : Dialect) : Nat → Nat → Text → Prop where
  | intro {sign word mark years b₁ b₂ b₃ : Text} {first last : Nat}
      (hsign : Alike d.commentPrefix sign) (h₁ : Blank b₁)
      (hword : Alike "Copyright" word) (h₂ : Blank b₂) (hmark : Alike "(c)" mark) (h₃ : Blank b₃)
      (hyears : Years first last years) :
      Notice d first last (sign ++ (b₁ ++ (word ++ (b₂ ++ (mark ++ (b₃ ++ years))))))

section Readings
variable {d : Dialect} {line front s : Text} {x : Line} {p : Contributor} {first last : Nat}

theorem Notice.copyright?_append (h : Notice d first last front) (hs : Ends s) :
    copyright? d (front ++ s) = (blanksThen person? 1 s).map (Line.copyright first last) := by
  obtain ⟨hsign, h₁, hword, h₂, hmark, h₃, hyears⟩ := h
  simp only [copyright?, body?, List.append_assoc, hsign.drop, hword.drop, hmark.drop,
    Text.stripLeft_blank_append h₁, Text.stripLeft_blank_append h₂, Text.stripLeft_blank_append h₃,
    Text.stripLeft_eq_self (hword.head (Or.inl rfl) _),
    Text.stripLeft_eq_self (hmark.head (Or.inr rfl) _), Text.stripLeft_eq_self (hyears.head s),
    hyears.yearSpan?_append hs, Option.bind_eq_bind, Option.bind_some]
  cases blanksThen person? 1 s with
  | none => rfl
  | some who => rfl

theorem exists_notice (h : copyright? d line = some x) :
    ∃ first last who front s, x = .copyright first last who ∧ line = front ++ s ∧
    Notice d first last front ∧
      blanksThen person? 1 s = some who := by
  simp only [copyright?, body?, Option.bind_eq_bind, Option.bind_eq_some_iff] at h
  obtain ⟨s₁, hbody, s₂, hcopy, s₃, hbracket, ⟨first, last, s⟩, hspan, who, hwho, hx⟩ := h
  obtain ⟨sign, rfl, hsign⟩ := Text.dropIgnoringCase?_eq_some_iff.mp hbody
  obtain ⟨word, hs₁, hword⟩ := Text.dropIgnoringCase?_eq_some_iff.mp hcopy
  obtain ⟨mark, hs₂, hmark⟩ := Text.dropIgnoringCase?_eq_some_iff.mp hbracket
  obtain ⟨years, hs₃, hyears⟩ := exists_years hspan
  obtain ⟨b₁, h₁, hleft₁⟩ := Text.exists_eq_stripLeft s₁
  obtain ⟨b₂, h₂, hleft₂⟩ := Text.exists_eq_stripLeft s₂
  obtain ⟨b₃, h₃, hleft₃⟩ := Text.exists_eq_stripLeft s₃
  refine ⟨first, last, who, _, s, (Option.some.inj hx).symm, ?_,
    .intro hsign h₁ hword h₂ hmark h₃ hyears, hwho⟩
  rw [hleft₁, hs₁, hleft₂, hs₂, hleft₃, hs₃]
  simp only [List.append_assoc]

theorem copyright?_some (h : copyright? d line = some x) :
    ∃ first last who s, x = .copyright first last who ∧ person? s = some who := by
  obtain ⟨first, last, who, front, s, hx, -, -, hwho⟩ := exists_notice h
  obtain ⟨_, r, -, -, -, hr⟩ := blanksThen_some hwho
  exact ⟨first, last, who, r, hx, hr⟩

theorem spdx?_some (h : spdx? d line = some x) :
    ∃ license url maintainer, x = .spdx license url maintainer := by
  simp only [spdx?, Option.bind_eq_bind, Option.bind_eq_some_iff] at h
  obtain ⟨_, -, _, -, h⟩ := h
  split_ifs at h
  split at h <;> exact ⟨_, _, _, (Option.some.inj h).symm⟩

theorem boundsThen_some {α : Type} {next : Text → Option α} {indent : Int} {s : Text} {a : α}
    (h : boundsThen next indent s = some a) : ∃ r, next r = some a := by
  cases s with
  | nil => simp [boundsThen] at h
  | cons c s =>
    rw [boundsThen] at h
    split_ifs at h
    obtain ⟨r, -, hr⟩ := Option.bind_eq_some_iff.mp h
    exact ⟨r, hr⟩

theorem continuation?_some (h : continuation? d line = some x) :
    ∃ who s, x = .continuation who ∧ person? s = some who := by
  simp only [continuation?, Option.bind_eq_bind, Option.bind_eq_some_iff] at h
  obtain ⟨t, -, h⟩ := h
  split_ifs at h
  · obtain ⟨who, hwho, hx⟩ := Option.bind_eq_some_iff.mp h
    obtain ⟨s, hs⟩ := boundsThen_some hwho
    exact ⟨who, s, (Option.some.inj hx).symm, hs⟩
  · obtain ⟨who, hwho, hx⟩ := Option.bind_eq_some_iff.mp h
    obtain ⟨b, s, -, -, -, hs⟩ := blanksThen_some hwho
    exact ⟨who, s, (Option.some.inj hx).symm, hs⟩

theorem exists_continuation (hd : 0 ≤ d.indent) (h : continuation? d line = some x) :
    ∃ who s, x = .continuation who ∧ line = d.commentPrefix ++ s ∧
    blanksThen person? d.indent.toNat s = some who := by
  obtain ⟨s, hs⟩ : ∃ s, line = d.commentPrefix ++ s := by
    simp only [continuation?, Option.bind_eq_bind, Option.bind_eq_some_iff] at h
    obtain ⟨s, hs, -⟩ := h
    exact ⟨s, Text.drop?_eq_some hs⟩
  rw [hs, continuation?_append hd] at h
  obtain ⟨who, hwho, hx⟩ := Option.map_eq_some_iff.mp h
  exact ⟨who, s, hx.symm, hs, hwho⟩

theorem classify_cases (line : Text) :
    (isSeparator d (chop line) = true ∧ classify d line = .separator) ∨
    (isSeparator d (chop line) = false ∧
      (copyright? d (chop line) = some (classify d line) ∨ spdx? d (chop line) =
        some (classify d line) ∨
        continuation? d (chop line) = some (classify d line) ∨ classify d line = .other)) := by
  rw [classify]
  split_ifs with hsep
  · exact Or.inl ⟨hsep, rfl⟩
  · refine Or.inr ⟨by simpa using hsep, ?_⟩
    rcases copyright? d (chop line) with _ | x
    · rcases spdx? d (chop line) with _ | y
      · rcases continuation? d (chop line) with _ | z
        · exact Or.inr (Or.inr (Or.inr rfl))
        · exact Or.inr (Or.inr (Or.inl rfl))
      · exact Or.inr (Or.inl rfl)
    · exact Or.inl rfl

theorem classify_eq_separator (line : Text) :
    classify d line = .separator ↔ isSeparator d (chop line) = true := by
  rcases classify_cases (d := d) line with ⟨hsep, hx⟩ | ⟨hsep, hx⟩
  · exact iff_of_true hx hsep
  · refine iff_of_false (fun h => ?_) (by simp [hsep])
    rw [h] at hx
    rcases hx with hx | hx | hx | hx
    · obtain ⟨_, _, _, _, hx, -⟩ := copyright?_some hx
      cases hx
    · obtain ⟨_, _, _, hx⟩ := spdx?_some hx
      cases hx
    · obtain ⟨_, _, hx, -⟩ := continuation?_some hx
      cases hx
    · cases hx

def Line.people : Line → List Contributor
  | .copyright _ _ who => [who]
  | .continuation who => [who]
  | _ => []

def Line.license? : Line → Option Text
  | .spdx license _ _ => some license
  | _ => none

theorem reading_of_people (hp : p ∈ (classify d line).people) :
    (∃ first last, classify d line = .copyright first last p ∧ copyright? d (chop line) =
      some (classify d line)) ∨
      (classify d line = .continuation p ∧ continuation? d (chop line) =
        some (classify d line)) := by
  rcases classify_cases (d := d) line with ⟨-, hx⟩ | ⟨-, hx | hx | hx | hx⟩
  · simp [hx, Line.people] at hp
  · obtain ⟨first, last, who, _, hwho, -⟩ := copyright?_some hx
    rw [hwho] at hp
    obtain rfl := List.mem_singleton.mp hp
    exact Or.inl ⟨first, last, hwho, hx⟩
  · obtain ⟨_, _, _, hother⟩ := spdx?_some hx
    simp [hother, Line.people] at hp
  · obtain ⟨who, _, hwho, -⟩ := continuation?_some hx
    rw [hwho] at hp
    obtain rfl := List.mem_singleton.mp hp
    exact Or.inr ⟨hwho, hx⟩
  · simp [hx, Line.people] at hp

theorem classify_people (hp : p ∈ (classify d line).people) : ∃ s, person? s = some p := by
  rcases reading_of_people hp with ⟨_, _, hkind, hread⟩ | ⟨hkind, hread⟩
  · obtain ⟨_, _, _, s, hline, hs⟩ := copyright?_some hread
    rw [hkind] at hline
    cases hline
    exact ⟨s, hs⟩
  · obtain ⟨_, s, hline, hs⟩ := continuation?_some hread
    rw [hkind] at hline
    cases hline
    exact ⟨s, hs⟩

theorem isSeparator_space (r : Text) : isSeparator d (d.commentPrefix ++ ' ' :: r) = false := by
  simp only [isSeparator, Text.drop?_append]
  rw [List.takeWhile_cons_of_neg (by decide)]
  rfl

theorem classify_ne_separator (r : Text) :
    classify d (d.commentPrefix ++ ' ' :: r) ≠ .separator := by
  rw [ne_eq, classify_eq_separator, chop_append_cons _ (by decide), isSeparator_space]
  simp

end Readings
end Masthead.Header
