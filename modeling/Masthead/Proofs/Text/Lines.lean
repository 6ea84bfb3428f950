import Masthead.Text.Basic
import Mathlib.Data.List.DropRight

/-! Lines of a text. Cutting a text at its line feeds and joining lines with line feeds undo each
other, also when more lines stand below. -/

namespace Masthead.Text

theorem splitOn_eq (sep : Char) (s : Text) : splitOn sep s = List.splitOn sep s := by
  induction s with
  | nil => rfl
  | cons c s ih =>
    rw [List.splitOn_cons_eq_if_modifyHead, splitOn, ih]
    by_cases h : c = sep
    · simp [h]
    · simp only [h, if_false, beq_iff_eq]
      cases hs : List.splitOn sep s with
      | nil => exact absurd hs (List.splitOn_ne_nil _ _)
      | cons piece pieces => rfl

theorem splitOn_ne_nil (sep : Char) (s : Text) : splitOn sep s ≠ [] := by
  rw [splitOn_eq]
  exact List.splitOn_ne_nil _ _

theorem splitOn_append (sep : Char) (s t : Text) :
    splitOn sep (s ++ sep :: t) = splitOn sep s ++ splitOn sep t := by
  simp only [splitOn_eq, List.splitOn_append_cons_self]

theorem splitOn_of_not_mem {sep : Char} {s : Text} (h : sep ∉ s) : splitOn sep s = [s] := by
  rw [splitOn_eq, List.splitOn_eq_singleton h]

theorem cutAt?_append {sep : Char} {s : Text} (h : sep ∉ s) (t : Text) :
    cutAt? sep (s ++ sep :: t) = some (s, t) := by
  induction s with
  | nil => simp [cutAt?]
  | cons c s ih =>
    have hc : c ≠ sep := fun heq => h (heq ▸ List.mem_cons_self)
    rw [List.cons_append, cutAt?, if_neg hc, ih (fun hs => h (List.mem_cons_of_mem _ hs)),
      Option.map_some]

theorem lines_eq (s : Text) : lines s = List.splitOn '\n' s := splitOn_eq '\n' s

theorem lines_ne_nil (s : Text) : lines s ≠ [] := splitOn_ne_nil '\n' s

theorem unlines_lines (s : Text) : unlines (lines s) = s := by
  rw [lines_eq]
  exact List.intercalate_splitOn '\n'

theorem lines_unlines {ls : List Text} (hne : ls ≠ []) (h : ∀ l ∈ ls, '\n' ∉ l) :
    lines (unlines ls) = ls := by
  rw [lines_eq]
  exact List.splitOn_intercalate '\n' h hne

theorem lines_newline (t : Text) : lines ('\n' :: t) = [] :: lines t := by
  simp only [lines, splitOn, if_true]

theorem lines_append (s t : Text) : lines (s ++ '\n' :: t) = lines s ++ lines t :=
  splitOn_append '\n' s t

theorem lines_replicate (n : Nat) : lines (List.replicate n '\n') = List.replicate (n + 1) [] := by
  induction n with
  | zero => rfl
  | succ n ih => rw [List.replicate_succ, lines_newline, ih, ← List.replicate_succ]

theorem lines_eq_cons (s : Text) :
    lines s = s.takeWhile (· ≠ '\n') :: (lines s).tail := by
  induction s with
  | nil => rfl
  | cons c s ih =>
    rw [lines, splitOn]
    by_cases h : c = '\n'
    · simp [h]
    · rw [lines] at ih
      rw [ih]
      simp [h]

theorem not_mem_of_mem_splitOn {sep : Char} {s l : Text} (h : l ∈ splitOn sep s) : sep ∉ l := by
  induction s generalizing l with
  | nil =>
    have hl : l = [] := by simpa [splitOn] using h
    simp [hl]
  | cons c s ih =>
    rw [splitOn] at h
    split_ifs at h with hc
    · rcases List.mem_cons.mp h with rfl | h
      · simp
      · exact ih h
    · cases hs : splitOn sep s with
      | nil =>
        have hl : l = [c] := by simpa [hs] using h
        simpa [hl] using Ne.symm hc
      | cons piece pieces =>
        rw [hs] at h
        rcases List.mem_cons.mp h with rfl | h
        · have hp : sep ∉ piece := ih (by rw [hs]; exact List.mem_cons_self)
          simpa [hp] using Ne.symm hc
        · exact ih (by rw [hs]; exact List.mem_cons_of_mem _ h)

theorem not_mem_of_mem_lines {s l : Text} (h : l ∈ lines s) : '\n' ∉ l := not_mem_of_mem_splitOn h

theorem unlines_cons {l : Text} {ls : List Text} (hne : ls ≠ []) :
    unlines (l :: ls) = l ++ '\n' :: unlines ls := by
  cases ls with
  | nil => exact absurd rfl hne
  | cons m ls => simp [unlines, join, List.intercalate]

theorem unlines_append {ks ls : List Text} (hk : ks ≠ []) (hl : ls ≠ []) :
    unlines (ks ++ ls) = unlines ks ++ '\n' :: unlines ls := by
  induction ks with
  | nil => exact absurd rfl hk
  | cons k ks ih =>
    by_cases hks : ks = []
    · subst hks
      simpa [unlines, join, List.intercalate] using unlines_cons (l := k) hl
    · rw [List.cons_append, unlines_cons (by simp [hl]), ih hks, unlines_cons hks]
      simp

theorem mem_unlines {ls : List Text} {l : Text} (hl : l ∈ ls) {x : Char} (hx : x ∈ l) :
    x ∈ unlines ls := by
  induction ls with
  | nil => simp at hl
  | cons m ls ih =>
    by_cases hne : ls = []
    · subst hne
      obtain rfl := List.mem_singleton.mp hl
      simpa [unlines, join, List.intercalate] using hx
    · rw [unlines_cons hne, List.mem_append, List.mem_cons]
      rcases List.mem_cons.mp hl with rfl | hl
      · exact Or.inl hx
      · exact Or.inr (Or.inr (ih hl))

def Follows (below : Text) : Prop := ∀ c ∈ below.head?, c = '\n'

theorem follows_nil : Follows [] := by simp [Follows]

theorem follows_cons (t : Text) : Follows ('\n' :: t) := by simp [Follows]

theorem lines_append_follows (s : Text) {below : Text} (hb : Follows below) :
    lines (s ++ below) = lines s ++ (lines below).tail := by
  cases below with
  | nil =>
    rw [List.append_nil]
    exact (List.append_nil _).symm
  | cons c t =>
    obtain rfl : c = '\n' := hb c rfl
    rw [lines_append, lines_newline, List.tail_cons]

theorem lines_unlines_append {ls : List Text} (hne : ls ≠ []) (h : ∀ l ∈ ls, '\n' ∉ l)
    {below : Text} (hb : Follows below) :
    lines (unlines ls ++ below) = ls ++ (lines below).tail := by
  rw [lines_append_follows _ hb, lines_unlines hne h]

theorem lines_unlines_concat {ls : List Text} (h : ∀ l ∈ ls, '\n' ∉ l) (s : Text) :
    lines (unlines (ls ++ [s])) = ls ++ lines s := by
  have hlast : unlines [s] = s := by simp [unlines, join, List.intercalate]
  by_cases hne : ls = []
  · rw [hne, List.nil_append, List.nil_append, hlast]
  · rw [unlines_append hne (by simp), lines_append, lines_unlines hne h, hlast]

theorem exists_eq_unlines_take (s : Text) {n : Nat} (hn : 0 < n) :
    ∃ below, Follows below ∧ s = unlines ((lines s).take n) ++ below ∧
      (lines s).drop n = (lines below).tail := by
  by_cases hd : (lines s).drop n = []
  · have ht : (lines s).take n = lines s := List.take_of_length_le (List.drop_eq_nil_iff.mp hd)
    refine ⟨[], follows_nil, ?_, hd⟩
    rw [ht, unlines_lines, List.append_nil]
  · have hk : (lines s).take n ≠ [] := by
      simp only [ne_eq, List.take_eq_nil_iff, lines_ne_nil, or_false]
      omega
    refine ⟨'\n' :: unlines ((lines s).drop n), follows_cons _, ?_, ?_⟩
    · rw [← unlines_append hk hd, List.take_append_drop, unlines_lines]
    · rw [lines_newline, lines_unlines hd fun l h => not_mem_of_mem_lines (List.mem_of_mem_drop h),
        List.tail_cons]

end Masthead.Text
