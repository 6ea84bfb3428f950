import Masthead.Source
import Masthead.Proofs.Text.Beginning

/-! What stays in front of the header. A closed preamble is split off again as it was, whatever
stands behind it, unless that begins like a preamble itself. -/

namespace Masthead.Source

structure Bare (s : Text) : Prop where
  mark : s.head? ≠ some byteOrderMark
  directive : Text.startsWith s ['#', '!'] = false

theorem Bare.append {s : Text} (h : Bare s) (hne : s ≠ []) {c : Char} (hc : c ≠ '!') (t : Text) :
    Bare (s ++ c :: t) where
  mark := by
    rw [List.head?_append_of_ne_nil _ hne]
    exact h.mark
  directive := by
    have hs := h.directive
    rcases s with _ | ⟨a, _ | ⟨b, s⟩⟩
    · exact absurd rfl hne
    · by_cases ha : a = '#' <;> simp [Text.startsWith, Text.drop?, ha, Ne.symm hc]
    · by_cases ha : a = '#' <;> by_cases hb : b = '!' <;>
        simp_all [Text.startsWith, Text.drop?, eq_comm]

theorem splitDirective_bare {s : Text} (h : Bare s) : splitDirective s = ([], s) := by
  rw [splitDirective, h.directive, if_neg (by decide)]

theorem splitPreamble_of_head {s : Text} (h : s.head? ≠ some byteOrderMark) :
    splitPreamble s = splitDirective s := by
  unfold splitPreamble
  split
  · exact absurd rfl h
  · rfl

theorem splitPreamble_mark (s : Text) :
    splitPreamble (byteOrderMark :: s) =
    (byteOrderMark :: (splitDirective s).1, (splitDirective s).2) :=
  rfl

theorem splitPreamble_bare {s : Text} (h : Bare s) : splitPreamble s = ([], s) := by
  rw [splitPreamble_of_head h.mark, splitDirective_bare h]

theorem splitDirective_append {l : Text} (hl : '\n' ∉ l) (s : Text) :
    splitDirective ('#' :: '!' :: (l ++ '\n' :: s)) = ('#' :: '!' :: (l ++ ['\n']), s) := by
  have hstart : Text.startsWith ('#' :: '!' :: (l ++ '\n' :: s)) ['#', '!'] = true := by
    simp [Text.startsWith, Text.drop?]
  have htake : ('#' :: '!' :: (l ++ '\n' :: s)).takeWhile (· ≠ '\n') = '#' :: '!' :: l := by
    rw [List.takeWhile_cons_of_pos (by decide), List.takeWhile_cons_of_pos (by decide),
      List.takeWhile_append_of_pos fun c hc => by simpa using ne_of_mem_of_not_mem hc hl,
      List.takeWhile_cons_of_neg (by decide), List.append_nil]
  rw [splitDirective, hstart, if_pos rfl]
  simp only [htake]
  simp

theorem splitDirective_unclosed {l : Text} (hl : '\n' ∉ l) :
    splitDirective ('#' :: '!' :: l) = ('#' :: '!' :: l, []) := by
  have hstart : Text.startsWith ('#' :: '!' :: l) ['#', '!'] = true := by
    simp [Text.startsWith, Text.drop?]
  have htake : ('#' :: '!' :: l).takeWhile (· ≠ '\n') = '#' :: '!' :: l := by
    rw [List.takeWhile_eq_self_iff]
    intro c hc
    simp only [List.mem_cons] at hc
    rcases hc with rfl | rfl | hc
    · decide
    · decide
    · simpa using ne_of_mem_of_not_mem hc hl
  rw [splitDirective, hstart, if_pos rfl]
  simp only [htake]
  simp

theorem splitDirective_join (s : Text) : (splitDirective s).1 ++ (splitDirective s).2 = s := by
  rw [splitDirective]
  split_ifs
  · have hline : s.takeWhile (· ≠ '\n') ++ s.drop (s.takeWhile (· ≠ '\n')).length = s :=
      List.prefix_iff_eq_append.mp (List.takeWhile_prefix _)
    simp only [List.append_assoc, List.take_append_drop, hline]
  · rfl

theorem splitPreamble_join (s : Text) : (splitPreamble s).1 ++ (splitPreamble s).2 = s := by
  by_cases hmark : s.head? = some byteOrderMark
  · obtain ⟨t, rfl⟩ := List.head?_eq_some_iff.mp hmark
    rw [splitPreamble_mark, List.cons_append, splitDirective_join]
  · rw [splitPreamble_of_head hmark, splitDirective_join]

/-- The interpreter line a text begins with, if any, up to its line feed, and the text behind it. -/
inductive IsDirective : Text → Text → Prop where
  | none {body : Text} (h : Text.startsWith body ['#', '!'] = false) : IsDirective [] body
  | closed {l : Text} (hl : '\n' ∉ l) (body : Text) : IsDirective ('#' :: '!' :: (l ++ ['\n'])) body
  | unclosed {l : Text} (hl : '\n' ∉ l) : IsDirective ('#' :: '!' :: l) []

theorem isDirective_splitDirective (s : Text) :
    IsDirective (splitDirective s).1 (splitDirective s).2 := by
  by_cases h : Text.startsWith s ['#', '!'] = true
  · obtain ⟨t, ht⟩ := Option.isSome_iff_exists.mp h
    obtain rfl := Text.drop?_eq_some ht
    by_cases hmem : '\n' ∈ t
    · obtain ⟨l, u, rfl, hl⟩ := List.eq_append_cons_of_mem hmem
      have hsplit := splitDirective_append hl u
      rw [List.cons_append, List.singleton_append, hsplit]
      exact .closed hl u
    · have hsplit := splitDirective_unclosed hmem
      rw [List.cons_append, List.singleton_append, hsplit]
      exact .unclosed hmem
  · rw [splitDirective, if_neg h]
    exact .none (Bool.not_eq_true _ ▸ h)

theorem splitPreamble_cases (s : Text) : ∃ line, IsDirective line (splitPreamble s).2 ∧
    (splitPreamble s).1 = if s.head? = some byteOrderMark then byteOrderMark :: line else line := by
  by_cases hmark : s.head? = some byteOrderMark
  · obtain ⟨t, rfl⟩ := List.head?_eq_some_iff.mp hmark
    exact ⟨_, isDirective_splitDirective t, (if_pos hmark).symm⟩
  · rw [splitPreamble_of_head hmark]
    exact ⟨_, isDirective_splitDirective s, (if_neg hmark).symm⟩

/-- Complete: at most a byte order mark and one whole interpreter line. -/
inductive Closed : Text → Prop where
  | nil : Closed []
  | mark : Closed [byteOrderMark]
  | directive {l : Text} (hl : '\n' ∉ l) : Closed ('#' :: '!' :: (l ++ ['\n']))
  | both {l : Text} (hl : '\n' ∉ l) : Closed (byteOrderMark :: '#' :: '!' :: (l ++ ['\n']))

theorem closePreamble_concat (s : Text) : closePreamble (s ++ ['\n']) = s ++ ['\n'] := by
  simp [closePreamble]

def Unclosed (pre : Text) : Prop := ['#', '!'] <:+: pre ∧ '\n' ∉ pre

instance (pre : Text) : Decidable (Unclosed pre) :=
  inferInstanceAs (Decidable (['#', '!'] <:+: pre ∧ '\n' ∉ pre))

theorem Unclosed.closePreamble_eq {pre : Text} (h : Unclosed pre) :
    closePreamble pre = pre ++ ['\n'] := by
  have hlength : 2 ≤ pre.length := h.1.length_le
  rw [closePreamble, if_neg]
  intro hclosed
  rcases hclosed with rfl | rfl | hlast
  · simp at hlength
  · simp at hlength
  · exact h.2 (List.mem_of_getLast? hlast)

theorem unclosed_directive {l : Text} (hl : '\n' ∉ l) : Unclosed ('#' :: '!' :: l) :=
  ⟨⟨[], l, rfl⟩, by simp [hl]⟩

theorem unclosed_both {l : Text} (hl : '\n' ∉ l) : Unclosed (byteOrderMark :: '#' :: '!' :: l) := by
  have hmark : '\n' ≠ byteOrderMark := by decide
  exact ⟨⟨[byteOrderMark], l, rfl⟩, by simp [hl, hmark]⟩

theorem Closed.closePreamble_eq {pre : Text} (h : Closed pre) : closePreamble pre = pre := by
  cases h with
  | nil => rfl
  | mark => rfl
  | @directive l hl => exact closePreamble_concat ('#' :: '!' :: l)
  | @both l hl => exact closePreamble_concat (byteOrderMark :: '#' :: '!' :: l)

theorem IsDirective.closed_or {line body : Text} (h : IsDirective line body) :
    Closed line ∧ Closed (byteOrderMark :: line) ∨
      body = [] ∧ ∃ l, '\n' ∉ l ∧ line = '#' :: '!' :: l := by
  cases h with
  | none => exact .inl ⟨.nil, .mark⟩
  | closed hl => exact .inl ⟨.directive hl, .both hl⟩
  | unclosed hl => exact .inr ⟨rfl, _, hl, rfl⟩

theorem splitPreamble_fst (s : Text) :
    Closed (splitPreamble s).1 ∨ (splitPreamble s).2 = [] ∧ ∃ l, '\n' ∉ l ∧
      ((splitPreamble s).1 = '#' :: '!' :: l ∨
        (splitPreamble s).1 = byteOrderMark :: '#' :: '!' :: l) := by
  obtain ⟨line, hline, hpre⟩ := splitPreamble_cases s
  rw [hpre]
  rcases hline.closed_or with ⟨hclosed, hmarked⟩ | ⟨hbody, l, hl, rfl⟩
  · left
    split_ifs
    · exact hmarked
    · exact hclosed
  · right
    refine ⟨hbody, l, hl, ?_⟩
    split_ifs
    · exact .inr rfl
    · exact .inl rfl

theorem closed_closePreamble (s : Text) : Closed (closePreamble (splitPreamble s).1) := by
  rcases splitPreamble_fst s with h | ⟨-, l, hl, h | h⟩
  · rwa [h.closePreamble_eq]
  · rw [h, (unclosed_directive hl).closePreamble_eq]
    exact .directive hl
  · rw [h, (unclosed_both hl).closePreamble_eq]
    exact .both hl

theorem closed_splitPreamble {s : Text} (h : (splitPreamble s).2 ≠ []) :
    Closed (splitPreamble s).1 :=
  (splitPreamble_fst s).resolve_right fun hopen => h hopen.1

theorem splitPreamble_directive {l : Text} (hl : '\n' ∉ l) (s : Text) :
    splitPreamble ('#' :: '!' :: (l ++ ['\n']) ++ s) = ('#' :: '!' :: (l ++ ['\n']), s) := by
  rw [splitPreamble_of_head (by simp; decide)]
  simpa using splitDirective_append hl s

theorem splitPreamble_both {l : Text} (hl : '\n' ∉ l) (s : Text) :
    splitPreamble (byteOrderMark :: '#' :: '!' :: (l ++ ['\n']) ++ s) =
      (byteOrderMark :: '#' :: '!' :: (l ++ ['\n']), s) := by
  rw [List.cons_append, splitPreamble_mark]
  have hsplit := splitDirective_append hl s
  simp only [List.cons_append, List.append_assoc, List.nil_append]
  rw [hsplit]

theorem Closed.splitPreamble_append {pre s : Text} (h : Closed pre) (hs : Bare s) :
    splitPreamble (pre ++ s) = (pre, s) := by
  cases h with
  | nil => exact splitPreamble_bare hs
  | mark =>
    rw [List.singleton_append, splitPreamble_mark, splitDirective_bare hs]
  | directive hl => exact splitPreamble_directive hl s
  | both hl => exact splitPreamble_both hl s

/-! A body that begins alike -/

section Exchange
variable {sign s t : Text} {x y : Char}

theorem startsWith_exchange (h : Text.startsWith (sign ++ x :: s) ['#', '!'] = false)
    (hy : y ∉ ['#', '!']) :
    Text.startsWith (sign ++ y :: t) ['#', '!'] = false := by
  simp only [List.mem_cons, List.not_mem_nil, or_false, not_or] at hy
  rcases sign with _ | ⟨a, _ | ⟨b, sign⟩⟩
  · simp [Text.startsWith, Text.drop?, Ne.symm hy.1]
  · by_cases ha : '#' = a <;> simp [Text.startsWith, Text.drop?, ha, Ne.symm hy.2]
  · simpa [Text.startsWith, Text.drop?] using h

theorem head?_exchange {mark : Char} (h : (sign ++ x :: s).head? ≠ some mark) (hy : y ≠ mark) :
    (sign ++ y :: t).head? ≠ some mark := by
  cases sign with
  | nil => simpa using hy
  | cons a sign => exact h

theorem startsWith_of_splitDirective (h : (splitDirective s).1 = []) :
    Text.startsWith s ['#', '!'] = false := by
  have hsplit := isDirective_splitDirective s
  have hjoin := splitDirective_join s
  rw [h] at hsplit hjoin
  rw [List.nil_append] at hjoin
  rw [hjoin] at hsplit
  cases hsplit with
  | none hstart => exact hstart

/-- Another body is split off behind the same preamble if it begins with the same sign. -/
theorem splitPreamble_exchange {content : Text} (hbody : (splitPreamble content).2 = sign ++ x :: s)
    (hy : y ∉ ['#', '!', byteOrderMark]) :
    splitPreamble ((splitPreamble content).1 ++ (sign ++ y :: t)) =
    ((splitPreamble content).1, sign ++ y :: t) := by
  have hclosed : Closed (splitPreamble content).1 := closed_splitPreamble (by simp [hbody])
  have hjoin := splitPreamble_join content
  have hmark : y ≠ byteOrderMark := fun h => hy (by simp [h])
  have hstart (h : (splitDirective (sign ++ x :: s)).1 = []) : splitDirective (sign ++ y :: t) =
      ([], sign ++ y :: t) := by
    have hexchange := startsWith_exchange (t := t) (startsWith_of_splitDirective h) (y := y)
      fun h => hy (List.mem_append_left [byteOrderMark] h)
    rw [splitDirective, hexchange, if_neg (by decide)]
  rcases hsplit : splitPreamble content with ⟨pre, body⟩
  rw [hsplit] at hclosed hjoin hbody
  dsimp only at hclosed hjoin hbody ⊢
  subst hbody
  cases hclosed with
  | nil =>
    rw [List.nil_append] at hjoin ⊢
    rw [← hjoin] at hsplit
    have hhead : (sign ++ x :: s).head? ≠ some byteOrderMark := by
      intro h
      obtain ⟨u, hu⟩ := List.head?_eq_some_iff.mp h
      rw [hu, splitPreamble_mark] at hsplit
      cases congrArg Prod.fst hsplit
    rw [splitPreamble_of_head hhead] at hsplit
    rw [splitPreamble_of_head (head?_exchange hhead hmark), hstart (congrArg Prod.fst hsplit)]
  | mark =>
    rw [← hjoin, List.singleton_append, splitPreamble_mark] at hsplit
    rw [List.singleton_append, splitPreamble_mark,
      hstart (List.cons.inj (congrArg Prod.fst hsplit)).2]
  | directive hl => exact splitPreamble_directive hl _
  | both hl => exact splitPreamble_both hl _

end Exchange

end Masthead.Source
