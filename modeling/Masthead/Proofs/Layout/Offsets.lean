import Masthead.Proofs.Layout.Placement
import Mathlib

/-! Where each fragment of a line starts and stops. A fragment starts at its column if the text
before it stops short of the column, and otherwise one space behind that text; between the fragments
there are only spaces. -/

namespace Masthead.Layout

/-! The order of the fragments -/

/-- The fragments stand by position, those for one position in the order in which they are given. -/
structure IsInOrder (columns fragments : List Column) : Prop where
  perm : fragments.Perm columns
  rising : fragments.Pairwise fun c d => c.position ≤ d.position
  steady : ∀ position, fragments.filter (·.position = position) =
    columns.filter (·.position = position)

theorem atMost_trans (a b c : Column) (hab : decide (a.position ≤ b.position) = true)
    (hbc : decide (b.position ≤ c.position) = true) : decide (a.position ≤ c.position) = true := by
  simp only [decide_eq_true_eq] at *
  omega

theorem atMost_total (a b : Column) :
    (decide (a.position ≤ b.position) || decide (b.position ≤ a.position)) = true := by
  simp only [Bool.or_eq_true, decide_eq_true_eq]
  omega

theorem sorted_isInOrder (columns : List Column) : IsInOrder columns (sorted columns) := by
  have hperm : (sorted columns).Perm columns := List.mergeSort_perm columns _
  refine ⟨hperm, ?_, fun position => ?_⟩
  · exact (List.pairwise_mergeSort atMost_trans atMost_total columns).imp of_decide_eq_true
  · -- what is for one position is in order already, so that sorting keeps it as a part of the whole
    have hone : (columns.filter (·.position = position)).Pairwise fun c d =>
        decide (c.position ≤ d.position) = true := by
      refine List.pairwise_of_forall_mem_list fun c hc d hd => ?_
      have hc' := of_decide_eq_true (List.mem_filter.mp hc).2
      have hd' := of_decide_eq_true (List.mem_filter.mp hd).2
      exact decide_eq_true (hc'.trans hd'.symm).le
    have hkept : (columns.filter (·.position = position)).Sublist (sorted columns) :=
      List.sublist_mergeSort atMost_trans atMost_total hone List.filter_sublist
    have hpart := hkept.filter (·.position = position)
    rw [List.filter_filter] at hpart
    simp only [Bool.and_self] at hpart
    exact (hpart.eq_of_length (hperm.filter _).length_eq.symm).symm

theorem sorted_perm {columns others : List Column} (hperm : others.Perm columns)
    (hpositions : (columns.map Column.position).Nodup) : sorted others = sorted columns := by
  have hother := sorted_isInOrder others
  have hcolumns := sorted_isInOrder columns
  refine (hother.perm.trans (hperm.trans hcolumns.perm.symm)).eq_of_pairwise ?_ hother.rising
    hcolumns.rising
  intro c d hc hd hle hge
  have hc' : c ∈ columns := hperm.mem_iff.mp (hother.perm.mem_iff.mp hc)
  exact List.inj_on_of_nodup_map hpositions hc' (hcolumns.perm.mem_iff.mp hd) (le_antisymm hle hge)

/-! Starts and stops -/

def start (width : Nat) : List Column → Nat → Nat
  | [], _ => width
  | c :: _, 0 => width + gap width c.position
  | c :: columns, i + 1 => start (width + gap width c.position + c.content.length) columns i

def stop (width : Nat) : List Column → Nat → Nat
  | [], _ => width
  | c :: _, 0 => width + gap width c.position + c.content.length
  | c :: columns, i + 1 => stop (width + gap width c.position + c.content.length) columns i

section Fragments
variable {columns : List Column} {i : Nat}

theorem stop_eq (width : Nat) (h : i < columns.length) :
    stop width columns i = start width columns i + columns[i].content.length := by
  induction columns generalizing width i with
  | nil => simp at h
  | cons c columns ih =>
    cases i with
    | zero => rfl
    | succ i => exact ih _ (Nat.lt_of_succ_lt_succ h)

theorem start_succ (width : Nat) (h : i + 1 < columns.length) :
    start width columns (i + 1) = stop width columns i +
    gap (stop width columns i) columns[i + 1].position := by
  induction columns generalizing width i with
  | nil => simp at h
  | cons c columns ih =>
    cases i with
    | zero =>
      obtain ⟨d, columns, rfl⟩ := List.exists_cons_of_length_pos (Nat.lt_of_succ_lt_succ h)
      rfl
    | succ i => exact ih _ (Nat.lt_of_succ_lt_succ h)

theorem append_place_cons (front : Text) (c : Column) (columns : List Column) :
    ∃ front', front' = front ++ Text.spaces (gap front.length c.position) ++ c.content ∧
      front'.length = front.length + gap front.length c.position + c.content.length ∧
      front ++ place front.length (c :: columns) = front' ++ place front'.length columns := by
  have hlength : (front ++ Text.spaces (gap front.length c.position) ++ c.content).length =
      front.length + gap front.length c.position + c.content.length := by
    simp [Text.spaces, Nat.add_assoc]
  refine ⟨_, rfl, hlength, ?_⟩
  rw [hlength, place]
  simp only [List.append_assoc]

theorem length_append_place (front : Text) (h : i + 1 = columns.length) :
    (front ++ place front.length columns).length = stop front.length columns i := by
  induction columns generalizing front i with
  | nil => simp at h
  | cons c columns ih =>
    obtain ⟨front', -, hlength, heq⟩ := append_place_cons front c columns
    rw [heq]
    cases i with
    | zero =>
      obtain rfl := List.eq_nil_of_length_eq_zero (Nat.succ.inj h).symm
      simpa [place, stop] using hlength
    | succ i => rw [ih front' (Nat.succ.inj h), stop, hlength]

theorem take_drop_append_place (front : Text) (h : i < columns.length) :
    ((front ++ place front.length columns).take (stop front.length columns i)).drop
    (start front.length columns i) =
      columns[i].content := by
  -- on the columns; the front grows by one fragment with each of them
  induction columns generalizing front i with
  | nil => simp at h
  | cons c columns ih =>
    obtain ⟨front', hfront, hlength, heq⟩ := append_place_cons front c columns
    rw [heq]
    cases i with
    | zero =>
      have hstop : stop front.length (c :: columns) 0 = front'.length := hlength.symm
      have hstart : start front.length (c :: columns) 0 =
          (front ++ Text.spaces (gap front.length c.position)).length := by
        simp [start, Text.spaces]
      rw [hstop, hstart, List.take_left, hfront, List.drop_left]
      rfl
    | succ i =>
      rw [start, stop, ← hlength]
      exact ih front' (Nat.lt_of_succ_lt_succ h)

theorem getElem?_append_place (front : Text) {k : Nat} {x : Char} (hk : front.length ≤ k)
    (h : (front ++ place front.length columns)[k]? = some x) :
    x = ' ' ∨ ∃ i < columns.length, start front.length columns i ≤ k ∧
    k < stop front.length columns i := by
  induction columns generalizing front with
  | nil =>
    rw [place, List.append_nil, List.getElem?_eq_none hk] at h
    cases h
  | cons c columns ih =>
    obtain ⟨front', hfront, hlength, heq⟩ := append_place_cons front c columns
    rw [heq] at h
    by_cases hbehind : front'.length ≤ k
    · refine (ih front' hbehind h).imp_right ?_
      rintro ⟨i, hi, hin⟩
      rw [hlength] at hin
      exact ⟨i + 1, Nat.succ_lt_succ hi, hin⟩
    · by_cases hgap : front.length + gap front.length c.position ≤ k
      · exact Or.inr ⟨0, Nat.succ_pos _, hgap, by rw [stop]; omega⟩
      · left
        rw [List.getElem?_append_left (by omega), hfront, List.append_assoc,
          List.getElem?_append_right hk, List.getElem?_append_left (by simp [Text.spaces]; omega)]
          at h
        exact List.eq_of_mem_replicate (List.mem_of_getElem? h)

end Fragments

/-! Lines -/

/-- The text has every fragment whole, from its start to its stop, and a space everywhere else. -/
structure Carries (text : Text) (fragments : List Column) (start stop : Nat → Nat) : Prop where
  stop_eq : ∀ i (_ : i < fragments.length), stop i = start i + fragments[i].content.length
  first : ∀ _ : 0 < fragments.length, (start 0 : Int) = max (0 : Int) fragments[0].position
  next : ∀ i (_ : i + 1 < fragments.length),
    (start (i + 1) : Int) =
      if (stop i : Int) < fragments[i + 1].position then fragments[i + 1].position
      else if 0 < stop i then (stop i : Int) + 1 else 0
  length : ∀ i, i + 1 = fragments.length → text.length = stop i
  content : ∀ i (_ : i < fragments.length), (text.take (stop i)).drop (start i) =
    fragments[i].content
  space : ∀ k (_ : k < text.length), (∀ i < fragments.length, k < start i ∨ stop i ≤ k) →
    text[k] = ' '

theorem place_carries (columns : List Column) :
    Carries (place 0 columns) columns (start 0 columns) (stop 0 columns) where
  stop_eq i hi := stop_eq 0 hi
  first hpos := by
    obtain ⟨c, columns, rfl⟩ := List.exists_cons_of_length_pos hpos
    change ((0 + gap 0 c.position : Nat) : Int) = max 0 c.position
    rw [gap]
    split_ifs <;> omega
  next i hi := by
    rw [start_succ 0 hi, gap]
    split_ifs <;> omega
  length i hi := length_append_place [] hi
  content i hi := take_drop_append_place [] hi
  space k hk hbetween := by
    have hat : ([] ++ place 0 columns)[k]? = some (place 0 columns)[k] :=
      List.getElem?_eq_getElem hk
    refine (getElem?_append_place [] (Nat.zero_le k) hat).resolve_right ?_
    rintro ⟨i, hi, hstart, hstop⟩
    rcases hbetween i hi with hbefore | hbehind
    · exact absurd hbefore (Nat.not_lt.mpr hstart)
    · exact absurd hstop (Nat.not_lt.mpr hbehind)

section Carries
variable {text : Text} {fragments : List Column} {start stop : Nat → Nat} {i : Nat}

theorem Carries.position_le (h : Carries text fragments start stop) (hi : i < fragments.length) :
    fragments[i].position ≤ start i := by
  cases i with
  | zero =>
    rw [h.first hi]
    exact le_max_right 0 _
  | succ i =>
    rw [h.next i hi]
    split_ifs <;> omega

theorem Carries.start_eq (h : Carries text fragments start stop) (hi : i + 1 < fragments.length)
    (hfree : (stop i : Int) < fragments[i + 1].position) :
    (start (i + 1) : Int) = fragments[i + 1].position := by
  rw [h.next i hi, if_pos hfree]

theorem Carries.stop_le (h : Carries text fragments start stop) (hi : i + 1 < fragments.length) :
    stop i ≤ start (i + 1) := by
  have hnext := h.next i hi
  split_ifs at hnext <;> omega

end Carries

/-- A line carries its fragments in the order of their columns, each at its column or one space
behind the text before it. The order in which fragments for different columns are given makes no
difference. -/
theorem line_carries {columns : List Column} (h : columns ≠ []) :
    IsInOrder columns (sorted columns) ∧ 0 < (sorted columns).length ∧
      (∃ start stop : Nat → Nat, Carries (line columns) (sorted columns) start stop ∧
        (∀ i (_ : i < (sorted columns).length), (sorted columns)[i].position ≤ start i) ∧
        (∀ _ : 0 < (sorted columns).length, (0 : Int) ≤ (sorted columns)[0].position →
          (start 0 : Int) = (sorted columns)[0].position) ∧
        ∀ i (_ : i + 1 < (sorted columns).length), stop i ≤ start (i + 1) ∧
          ((stop i : Int) < (sorted columns)[i + 1].position →
            (start (i + 1) : Int) = (sorted columns)[i + 1].position)) ∧
      ((columns.map Column.position).Nodup → ∀ others : List Column, others.Perm columns →
        line others = line columns) := by
  have horder := sorted_isInOrder columns
  have hcarries := place_carries (sorted columns)
  refine ⟨horder, ?_, ⟨_, _, hcarries, fun i hi => hcarries.position_le hi, fun hpos hfirst => ?_,
    fun i hi => ⟨hcarries.stop_le hi, hcarries.start_eq hi⟩⟩, fun hpositions others hperm => ?_⟩
  · rw [horder.perm.length_eq]
    exact List.length_pos_iff.mpr h
  · rw [hcarries.first hpos, max_eq_right hfirst]
  · rw [line, line, sorted_perm hperm hpositions]

theorem line_carries_crowded :
    let columns : List Column := [⟨"bc".toList, 5⟩, ⟨"a long name".toList, -1⟩, ⟨"d".toList, 20⟩]
    columns ≠ [] ∧ line columns = "a long name bc      d".toList ∧
      (∃ start stop : Nat → Nat, Carries (line columns) (sorted columns) start stop) ∧
      line columns.reverse = line columns := by
  intro columns
  have hne : columns ≠ [] := by decide
  have hline : line [⟨"bc".toList, 5⟩, ⟨"a long name".toList, -1⟩, ⟨"d".toList, 20⟩] =
      "a long name bc      d".toList := by cbv
  obtain ⟨-, -, ⟨start, stop, hcarries, -⟩, hgiven⟩ := line_carries hne
  exact ⟨hne, hline, ⟨start, stop, hcarries⟩,
    hgiven (by decide) columns.reverse columns.reverse_perm⟩

end Masthead.Layout
