import Masthead.Layout.Excess
import Masthead.Proofs.Text.Beginning

/-! Where fragments stand on a line. A fragment for the first column comes first, and all fragments
behind it are set off by spaces. -/

namespace Masthead.Layout

theorem gap_pos {width : Nat} (hw : 0 < width) (position : Int) : 0 < gap width position := by
  unfold gap
  split_ifs <;> omega

theorem gap_eq {width : Nat} (hw : 0 < width) (position : Int) :
    (gap width position : Int) = max (position - width) 1 := by
  unfold gap
  split_ifs <;> omega

theorem mem_place {width : Nat} {columns : List Column} {x : Char} (h : x ∈ place width columns) :
    x = ' ' ∨ ∃ c ∈ columns, x ∈ c.content := by
  induction columns generalizing width with
  | nil => simp [place] at h
  | cons c columns ih =>
    simp only [place, List.append_assoc, List.mem_append] at h
    rcases h with h | h | h
    · exact Or.inl (List.eq_of_mem_replicate h)
    · exact Or.inr ⟨c, List.mem_cons_self, h⟩
    · rcases ih h with h | ⟨d, hd, h⟩
      · exact Or.inl h
      · exact Or.inr ⟨d, List.mem_cons_of_mem _ hd, h⟩

theorem mem_line {columns : List Column} {x : Char} (h : x ∈ line columns) :
    x = ' ' ∨ ∃ c ∈ columns, x ∈ c.content := by
  rcases mem_place h with h | ⟨c, hc, h⟩
  · exact Or.inl h
  · exact Or.inr ⟨c, List.mem_mergeSort.mp hc, h⟩

theorem mem_place_of_mem {columns : List Column} {c : Column} (hc : c ∈ columns) {x : Char}
    (hx : x ∈ c.content) (width : Nat) : x ∈ place width columns := by
  induction columns generalizing width with
  | nil => simp at hc
  | cons d columns ih =>
    simp only [place, List.append_assoc, List.mem_append]
    rcases List.mem_cons.mp hc with rfl | hc
    · exact Or.inr (Or.inl hx)
    · exact Or.inr (Or.inr (ih hc _))

theorem mem_line_of_mem {columns : List Column} {c : Column} (hc : c ∈ columns) {x : Char}
    (hx : x ∈ c.content) : x ∈ line columns :=
  mem_place_of_mem (List.mem_mergeSort.mpr hc) hx 0

theorem place_eq_space {width : Nat} (hw : 0 < width) {columns : List Column} (hne : columns ≠ []) :
    ∃ r, place width columns = ' ' :: r := by
  cases columns with
  | nil => exact absurd rfl hne
  | cons c columns =>
    obtain ⟨n, hn⟩ := Nat.exists_eq_succ_of_ne_zero (gap_pos hw c.position).ne'
    refine ⟨Text.spaces n ++ c.content ++
      place (width + gap width c.position + c.content.length) columns, ?_⟩
    simp [place, hn, Text.spaces, List.replicate_succ]

theorem sorted_cons {c : Column} {columns : List Column}
    (h : ∀ d ∈ columns, c.position ≤ d.position) :
    sorted (c :: columns) = c :: sorted columns := by
  obtain ⟨front, back, hcons, hback, hfront⟩ :=
    @List.mergeSort_cons Column (fun a b => decide (a.position ≤ b.position))
      (fun a b d hab hbd => by simp only [decide_eq_true_eq] at *; omega)
      (fun a b => by simp only [Bool.or_eq_true, decide_eq_true_eq]; omega) c columns
  -- nothing that stays behind `c` is sorted before it
  have hnil : front = [] := by
    refine List.eq_nil_iff_forall_not_mem.mpr fun d hd => ?_
    have hmem : d ∈ columns := by
      rw [← @List.mem_mergeSort Column (fun a b => decide (a.position ≤ b.position)), hback]
      exact List.mem_append_left _ hd
    have hlt := hfront d hd
    simp only [h d hmem, decide_true, Bool.not_true, Bool.false_eq_true] at hlt
  subst hnil
  rw [List.nil_append] at hcons hback
  rw [sorted, hcons, sorted, hback]

theorem line_start (start : Text) {columns : List Column} (h : ∀ c ∈ columns, 0 ≤ c.position) :
    line (⟨start, 0⟩ :: columns) = start ++ place start.length (sorted columns) := by
  rw [line, sorted_cons h]
  simp [place, gap, Text.spaces]

theorem line_pair (start : Text) {c : Column} (hc : 0 ≤ c.position) :
    line [⟨start, 0⟩, c] = start ++ (Text.spaces (gap start.length c.position) ++ c.content) := by
  rw [line_start start (by simpa using hc), sorted, List.mergeSort_singleton]
  simp [place]

theorem line_triple (start : Text) {c d : Column} (hc : 0 ≤ c.position)
    (hd : c.position ≤ d.position) :
    line [⟨start, 0⟩, c, d] =
      start ++ (Text.spaces (gap start.length c.position) ++ (c.content ++
        (Text.spaces (gap (start.length + gap start.length c.position + c.content.length)
          d.position) ++
          d.content))) := by
  have hs : sorted [c, d] = [c, d] := by
    rw [sorted_cons (by simpa using hd), sorted, List.mergeSort_singleton]
  rw [line_start start (by simp; omega), hs]
  simp [place]

section Limits
variable [Limits] {columns : List Column}

theorem placeExcess?_eq_none (h : ∀ c ∈ columns, c.position ≤ Limits.memory) (width : Nat) :
    placeExcess? width columns = none := by
  induction columns generalizing width with
  | nil => rfl
  | cons c columns ih =>
    have hc : c.position ≤ Limits.memory := h c List.mem_cons_self
    have hexcess : excess? (c.position - width) 1 = none := by
      have hcount := Limits.memory_le
      simp only [excess?, countLimit, Int.natCast_one, Int.mul_one]
      split_ifs <;> first | rfl | omega
    simp only [placeExcess?, hexcess]
    exact ih (fun d hd => h d (List.mem_cons_of_mem _ hd)) _

theorem lineExcess?_eq_none (h : ∀ c ∈ columns, c.position ≤ Limits.memory) :
    lineExcess? columns = none :=
  placeExcess?_eq_none (fun c hc => h c (List.mem_mergeSort.mp hc)) 0

end Limits
end Masthead.Layout
