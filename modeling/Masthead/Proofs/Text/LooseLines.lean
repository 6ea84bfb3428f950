import Masthead.Text.Basic
import Mathlib.Data.List.Flatten

/-! Lines by any convention. Other characters than the line feed end a line too, so that lines which
were each ended with a line feed are found again only where none of these characters stands in one
of them. -/

namespace Masthead.Text
variable {c : Char} {l s line : Text}

theorem looseLines_go_break (hc : isLineBreak c = true) (hs : c = '\r' → s.head? ≠ some '\n')
    (line : Text) :
    looseLines.go (c :: s) line = line.reverse :: looseLines s := by
  rw [looseLines.go, if_pos hc]
  · rfl
  · rintro t hreturn rfl
    exact hs hreturn rfl

theorem looseLines_go_feed (s line : Text) :
    looseLines.go ('\n' :: s) line = line.reverse :: looseLines s :=
  looseLines_go_break (by decide) (fun h => absurd h (by decide)) line

theorem looseLines_go_inside (hc : isLineBreak c = false) (s line : Text) :
    looseLines.go (c :: s) line = looseLines.go s (c :: line) := by
  rw [looseLines.go, if_neg (by simp [hc])]
  rintro t rfl
  exact absurd hc (by decide)

theorem head?_append_ne (h : '\n' ∉ l) (hl : l ≠ []) (s : Text) : (l ++ s).head? ≠ some '\n' := by
  obtain ⟨d, l, rfl⟩ := List.exists_cons_of_ne_nil hl
  rintro ⟨⟩
  exact h List.mem_cons_self

theorem looseLines_go_append (h : '\n' ∉ l) (s line : Text) :
    looseLines.go (l ++ '\n' :: s) line = looseLines.go (l ++ ['\n']) line ++ looseLines s := by
  induction l generalizing line with
  | nil =>
    rw [List.nil_append, List.nil_append, looseLines_go_feed, looseLines_go_feed]
    rfl
  | cons c l ih =>
    rw [List.mem_cons, not_or] at h
    rw [List.cons_append, List.cons_append]
    cases hc : isLineBreak c with
    | false => rw [looseLines_go_inside hc, looseLines_go_inside hc, ih h.2]
    | true =>
      -- a carriage return at the end of the line is one break with the line feed
      by_cases hpair : c = '\r' ∧ l = []
      · obtain ⟨rfl, rfl⟩ := hpair
        rfl
      · have hhead (t : Text) : c = '\r' → (l ++ t).head? ≠ some '\n' := fun hreturn =>
          head?_append_ne h.2 (fun hl => hpair ⟨hreturn, hl⟩) t
        rw [looseLines_go_break hc (hhead _), looseLines_go_break hc (hhead _), looseLines, ih h.2]
        rfl

theorem looseLines_flatMap {lines : List Text} (h : ∀ l ∈ lines, '\n' ∉ l) :
    looseLines (lines.flatMap (· ++ ['\n'])) = lines.flatMap fun l => looseLines (l ++ ['\n']) := by
  induction lines with
  | nil => rfl
  | cons l lines ih =>
    obtain ⟨hl, hlines⟩ := List.forall_mem_cons.mp h
    rw [List.flatMap_cons, List.flatMap_cons, List.append_assoc, List.singleton_append, looseLines,
      looseLines_go_append hl, ih hlines]
    rfl

/-! What becomes of one line -/

theorem looseLines_go_unbroken (h : ∀ c ∈ l, isLineBreak c = false) (line : Text) :
    looseLines.go (l ++ ['\n']) line = [line.reverse ++ l] := by
  induction l generalizing line with
  | nil => exact (looseLines_go_feed [] line).trans (by rw [List.append_nil]; rfl)
  | cons c l ih =>
    obtain ⟨hc, hl⟩ := List.forall_mem_cons.mp h
    rw [List.cons_append, looseLines_go_inside hc, ih hl, List.reverse_cons, List.append_assoc,
      List.singleton_append]

theorem looseLines_unbroken (h : ∀ c ∈ l, isLineBreak c = false) : looseLines (l ++ ['\n']) = [l] :=
  looseLines_go_unbroken h []

theorem length_looseLines_go (h : '\r' ∉ s) (line : Text) :
    (looseLines.go (s ++ ['\n']) line).length = s.countP isLineBreak + 1 := by
  induction s generalizing line with
  | nil => rfl
  | cons c s ih =>
    rw [List.mem_cons, not_or] at h
    rw [List.cons_append]
    cases hc : isLineBreak c with
    | false => rw [looseLines_go_inside hc, ih h.2, List.countP_cons_of_neg (by simp [hc])]
    | true =>
      rw [looseLines_go_break hc fun hreturn => absurd hreturn.symm h.1, List.length_cons,
        looseLines, ih h.2, List.countP_cons_of_pos hc]

theorem length_looseLines (h : '\r' ∉ l) :
    (looseLines (l ++ ['\n'])).length = l.countP isLineBreak + 1 :=
  length_looseLines_go h []

theorem count_looseLines_go (hc : isLineBreak c = false) (s line : Text) :
    (looseLines.go s line).flatten.count c = line.count c + s.count c := by
  have hbreak {d : Char} (hd : isLineBreak d = true) (s : Text) : (d :: s).count c = s.count c :=
    List.count_cons_of_ne (by rintro rfl; exact absurd hd (by simp [hc]))
  fun_induction looseLines.go s line with
  | case1 => rfl
  | case2 line _ => simp
  | case3 s line ih =>
    rw [List.flatten_cons, List.count_append, List.count_reverse, ih, hbreak (by decide),
      hbreak (by decide), List.count_nil, Nat.zero_add]
  | case4 d s line _ hd ih =>
    rw [List.flatten_cons, List.count_append, List.count_reverse, ih, hbreak hd, List.count_nil,
      Nat.zero_add]
  | case5 d s line _ hd ih =>
    rw [ih, List.count_cons, List.count_cons]
    omega

theorem count_looseLines (hc : isLineBreak c = false) (s : Text) :
    (looseLines s).flatten.count c = s.count c := by
  rw [looseLines, count_looseLines_go hc, List.count_nil, Nat.zero_add]

theorem isLineBreak_of_mem_looseLines_go (hline : ∀ d ∈ line, isLineBreak d = false)
    (hl : l ∈ looseLines.go s line) :
    ∀ d ∈ l, isLineBreak d = false := by
  fun_induction looseLines.go s line with
  | case1 => cases hl
  | case2 line _ =>
    rw [List.mem_singleton] at hl
    subst hl
    exact fun d hd => hline d (List.mem_reverse.mp hd)
  | case3 s line ih =>
    rcases List.mem_cons.mp hl with rfl | hl
    · exact fun d hd => hline d (List.mem_reverse.mp hd)
    · exact ih (by simp) hl
  | case4 d s line _ hd ih =>
    rcases List.mem_cons.mp hl with rfl | hl
    · exact fun d hd => hline d (List.mem_reverse.mp hd)
    · exact ih (by simp) hl
  | case5 d s line _ hd ih => exact ih (List.forall_mem_cons.mpr ⟨by simpa using hd, hline⟩) hl

theorem isLineBreak_of_mem_looseLines (hl : l ∈ looseLines s) : ∀ d ∈ l, isLineBreak d = false :=
  isLineBreak_of_mem_looseLines_go (by simp) hl

end Masthead.Text
