import Masthead.Source
import Mathlib.Data.List.Basic

/-! Line breaks. A text whose line breaks are all of one kind is the same again once they have been
made line feeds and then what they were. -/

namespace Masthead.Source

theorem write_append (s t : Text) (newline : Newline) :
    write (s ++ t) newline = write s newline ++ write t newline := List.flatMap_append

theorem write_cons (c : Char) (s : Text) (newline : Newline) :
    write (c :: s) newline = (if c = '\n' then newline.text else [c]) ++ write s newline := rfl

theorem write_lf (s : Text) : write s .lf = s := by
  induction s with
  | nil => rfl
  | cons c s ih =>
    rw [write_cons, ih]
    split_ifs with hc
    · rw [hc]
      rfl
    · rfl

section Counts
variable {raw : Text}

theorem countPairs_le (raw : Text) :
    countPairs raw ≤ raw.count '\r' ∧ countPairs raw ≤ raw.count '\n' := by
  fun_induction countPairs raw with
  | case1 rest ih => simpa using ih
  | case2 c rest _ ih =>
    have hr : rest.count '\r' ≤ (c :: rest).count '\r' := List.count_le_count_cons
    have hn : rest.count '\n' ≤ (c :: rest).count '\n' := List.count_le_count_cons
    omega
  | case3 => simp

/-! Only line feeds -/

theorem normalize_eq_self (h : '\r' ∉ raw) : normalize raw = raw := by
  fun_induction normalize raw with
  | case1 => rfl
  | case2 rest ih => simp at h
  | case3 rest _ ih => simp at h
  | case4 c rest _ _ ih => rw [ih fun hr => h (List.mem_cons_of_mem _ hr)]

theorem normalize_append (h : '\r' ∉ raw) (more : Text) :
    normalize (raw ++ more) = raw ++ normalize more := by
  induction raw with
  | nil => rfl
  | cons c raw ih =>
    rw [List.mem_cons, not_or] at h
    rw [List.cons_append, normalize, ih h.2]
    · rfl
    · exact fun _ hc => absurd hc.symm h.1
    · exact fun hc => h.1 hc.symm

theorem return_not_mem_normalize (raw : Text) : '\r' ∉ normalize raw := by
  fun_induction normalize raw with
  | case1 => exact List.not_mem_nil
  | case2 rest ih => simpa using ih
  | case3 rest _ ih => simpa using ih
  | case4 c rest _ hc ih =>
    rw [List.mem_cons, not_or]
    exact ⟨fun h => hc h.symm, ih⟩

theorem firstNewline_lf (h : '\r' ∉ raw) : firstNewline raw = .lf := by
  fun_induction firstNewline raw with
  | case1 => rfl
  | case2 => rfl
  | case3 => simp at h
  | case4 => simp at h
  | case5 c rest _ _ _ ih => exact ih fun hr => h (List.mem_cons_of_mem _ hr)

/-! Only carriage returns -/

theorem write_normalize_cr (h : '\n' ∉ raw) : write (normalize raw) .cr = raw := by
  fun_induction normalize raw with
  | case1 => rfl
  | case2 rest ih => simp at h
  | case3 rest _ ih =>
    rw [write_cons, ih fun hr => h (List.mem_cons_of_mem _ hr)]
    rfl
  | case4 c rest _ _ ih =>
    have hc : c ≠ '\n' := fun hc => h (hc ▸ List.mem_cons_self)
    rw [write_cons, if_neg hc, ih fun hr => h (List.mem_cons_of_mem _ hr)]
    rfl

theorem firstNewline_cr (hn : '\n' ∉ raw) (hr : '\r' ∈ raw) : firstNewline raw = .cr := by
  fun_induction firstNewline raw with
  | case1 => simp at hr
  | case2 => simp at hn
  | case3 => simp at hn
  | case4 => rfl
  | case5 c rest _ _ hc ih =>
    have hrest : '\r' ∈ rest := (List.mem_cons.mp hr).resolve_left fun h => hc h.symm
    exact ih (fun h => hn (List.mem_cons_of_mem _ h)) hrest

/-! Only pairs of both -/

theorem countPairs_cons {c : Char} {rest : Text} (h : ∀ t, c = '\r' → rest ≠ '\n' :: t) :
    countPairs (c :: rest) = countPairs rest := by
  rw [countPairs]
  intro t hc ht
  exact h t hc ht

theorem write_normalize_crlf (hr : raw.count '\r' = countPairs raw)
    (hn : raw.count '\n' = countPairs raw) :
    write (normalize raw) .crlf = raw := by
  fun_induction normalize raw with
  | case1 => rfl
  | case2 rest ih =>
    simp only [countPairs, List.count_cons] at hr hn
    have hrest := ih (by simpa using hr) (by simpa using hn)
    rw [write_cons, hrest]
    rfl
  | case3 rest hfeed ih =>
    -- A return without a line feed behind it is more than the pairs account for.
    rw [countPairs_cons fun t _ ht => hfeed t ht] at hr
    have hle := (countPairs_le rest).1
    simp only [List.count_cons_self] at hr
    omega
  | case4 c rest _ hreturn ih =>
    have hne : c ≠ '\r' := hreturn
    rw [countPairs_cons fun t hc => absurd hc hne] at hr hn
    by_cases hc : c = '\n'
    · subst hc
      have hle := (countPairs_le rest).2
      simp only [List.count_cons_self] at hn
      omega
    · rw [List.count_cons_of_ne hne] at hr
      rw [List.count_cons_of_ne hc] at hn
      rw [write_cons, if_neg hc, ih hr hn]
      rfl

theorem firstNewline_crlf (hr : raw.count '\r' = countPairs raw)
    (hn : raw.count '\n' = countPairs raw) (hmem : '\r' ∈ raw) : firstNewline raw = .crlf := by
  fun_induction firstNewline raw with
  | case1 => simp at hmem
  | case2 rest =>
    rw [countPairs_cons fun t hc => absurd hc (by decide)] at hn
    have hle := (countPairs_le rest).2
    simp only [List.count_cons_self] at hn
    omega
  | case3 => rfl
  | case4 rest hfeed =>
    rw [countPairs_cons fun t _ ht => hfeed t ht] at hr
    have hle := (countPairs_le rest).1
    simp only [List.count_cons_self] at hr
    omega
  | case5 c rest hfeed _ hreturn ih =>
    have hrest : '\r' ∈ rest := (List.mem_cons.mp hmem).resolve_left fun h => hreturn h.symm
    have hne : c ≠ '\r' := hreturn
    have hc : c ≠ '\n' := hfeed
    rw [countPairs_cons fun t h => absurd h hne] at hr hn
    rw [List.count_cons_of_ne hne] at hr
    rw [List.count_cons_of_ne hc] at hn
    exact ih hr hn hrest

end Counts

theorem isMixed_eq_false_iff (raw : Text) :
    isMixed raw = false ↔ '\r' ∉ raw ∨ '\n' ∉ raw ∨
      raw.count '\r' = countPairs raw ∧ raw.count '\n' = countPairs raw := by
  obtain ⟨hreturns, hfeeds⟩ := countPairs_le raw
  simp only [isMixed, decide_eq_false_iff_not, List.countP_cons, List.countP_nil, decide_eq_true_eq,
    ← List.count_eq_zero]
  split_ifs <;> omega

theorem write_normalize {raw : Text} (h : isMixed raw = false) :
    write (normalize raw) (firstNewline raw) = raw := by
  rw [isMixed_eq_false_iff] at h
  by_cases hr : '\r' ∈ raw
  · by_cases hn : '\n' ∈ raw
    · obtain ⟨hreturns, hfeeds⟩ := (h.resolve_left (not_not.mpr hr)).resolve_left (not_not.mpr hn)
      rw [firstNewline_crlf hreturns hfeeds hr, write_normalize_crlf hreturns hfeeds]
    · rw [firstNewline_cr hn hr, write_normalize_cr hn]
  · rw [firstNewline_lf hr, normalize_eq_self hr, write_lf]

/-! What was written is read -/

section Written
variable {s : Text}

theorem write_of_not_mem (h : '\n' ∉ s) (newline : Newline) : write s newline = s := by
  induction s with
  | nil => rfl
  | cons c s ih =>
    rw [List.mem_cons, not_or] at h
    rw [write_cons, if_neg (Ne.symm h.1), ih h.2]
    rfl

theorem feed_not_mem_write_cr (s : Text) : '\n' ∉ write s .cr := by
  intro h
  obtain ⟨c, -, hc⟩ := List.mem_flatMap.mp h
  split_ifs at hc with hfeed
  · simp [Newline.text] at hc
  · exact hfeed (List.mem_singleton.mp hc).symm

theorem count_write_crlf (h : '\r' ∉ s) :
    (write s .crlf).count '\r' = countPairs (write s .crlf) ∧
      (write s .crlf).count '\n' = countPairs (write s .crlf) := by
  induction s with
  | nil => exact ⟨rfl, rfl⟩
  | cons c s ih =>
    rw [List.mem_cons, not_or] at h
    obtain ⟨hreturns, hfeeds⟩ := ih h.2
    rw [write_cons]
    split_ifs with hc
    · change ('\r' :: '\n' :: write s .crlf).count '\r' =
        countPairs ('\r' :: '\n' :: write s .crlf) ∧
        ('\r' :: '\n' :: write s .crlf).count '\n' = countPairs ('\r' :: '\n' :: write s .crlf)
      simp [countPairs, hreturns, hfeeds]
    · rw [List.singleton_append, countPairs_cons fun t hreturn => absurd hreturn.symm h.1,
        List.count_cons_of_ne (Ne.symm h.1), List.count_cons_of_ne hc]
      exact ⟨hreturns, hfeeds⟩

theorem mem_write (h : '\n' ∈ s) (newline : Newline) : ∀ c ∈ newline.text, c ∈ write s newline :=
  fun c hc => List.mem_flatMap.mpr ⟨'\n', h, by rwa [if_pos rfl]⟩

theorem isMixed_write (h : '\r' ∉ s) (newline : Newline) : isMixed (write s newline) = false := by
  rw [isMixed_eq_false_iff]
  cases newline with
  | lf => exact Or.inl (by rwa [write_lf])
  | crlf => exact Or.inr (Or.inr (count_write_crlf h))
  | cr => exact Or.inr (Or.inl (feed_not_mem_write_cr s))

theorem firstNewline_write (h : '\r' ∉ s) (newline : Newline) :
    firstNewline (write s newline) = if '\n' ∈ s then newline else .lf := by
  split_ifs with hfeed
  · have hmem := mem_write hfeed newline
    cases newline with
    | lf => exact firstNewline_lf (by rwa [write_lf])
    | crlf =>
      exact firstNewline_crlf (count_write_crlf h).1 (count_write_crlf h).2 (hmem '\r' (by decide))
    | cr => exact firstNewline_cr (feed_not_mem_write_cr s) (hmem '\r' (by decide))
  · rw [write_of_not_mem hfeed, firstNewline_lf h]

theorem normalize_cons {c : Char} (h : c ≠ '\r') (rest : Text) :
    normalize (c :: rest) = c :: normalize rest := by
  have hc : '\r' ∉ [c] := by simpa using Ne.symm h
  exact normalize_append hc rest

theorem normalize_return {rest : Text} (h : '\n' ∉ rest) :
    normalize ('\r' :: rest) = '\n' :: normalize rest := by
  rw [normalize]
  rintro t rfl
  exact h List.mem_cons_self

theorem normalize_write (h : '\r' ∉ s) (newline : Newline) : normalize (write s newline) = s := by
  induction s with
  | nil => rfl
  | cons c s ih =>
    rw [List.mem_cons, not_or] at h
    have hs := ih h.2
    rw [write_cons]
    split_ifs with hc
    · subst hc
      cases newline with
      | lf => exact (normalize_cons (by decide) _).trans (congrArg _ hs)
      | crlf => exact congrArg ('\n' :: ·) hs
      | cr => exact (normalize_return (feed_not_mem_write_cr s)).trans (congrArg _ hs)
    · exact (normalize_cons (Ne.symm h.1) _).trans (congrArg _ hs)

theorem read_write (h : '\r' ∉ s) (newline : Newline) :
    read (write s newline) = ⟨s, if '\n' ∈ s then newline else .lf, false⟩ := by
  rw [read, normalize_write h, firstNewline_write h, isMixed_write h]

end Written

/-- What was read is written as it was exactly where the line breaks were all of one kind. -/
theorem write_read_iff (raw : Text) :
    write (read raw).text (read raw).newline = raw ↔ (read raw).mixed = false := by
  refine ⟨fun h => ?_, write_normalize⟩
  have hmixed := isMixed_write (return_not_mem_normalize raw) (read raw).newline
  rwa [show write (normalize raw) (read raw).newline = raw from h] at hmixed

end Masthead.Source
