import Masthead.Diff
import Masthead.Proofs.Backend.Style
import Masthead.Proofs.Text.Lines
import Masthead.Proofs.Text.LooseLines

/-! Differences on the terminal. A list of lines is shown line by line, with its carriage returns
made visible. Given as one text the same lines are cut at every line break first, and come out the
same only where there is none but the line feeds behind them. -/

namespace Masthead.Diff
open Painter (OnlyMarks isShown)

variable {color : Bool} {c : Char} {line : Text} {lines : List Text}

def visible (line : Text) : Text := line.flatMap fun c => if c = '\r' then ['\\', 'r'] else [c]

theorem visible_cons (c : Char) (line : Text) :
    visible (c :: line) = (if c = '\r' then ['\\', 'r'] else [c]) ++ visible line := rfl

theorem visible_append (s t : Text) : visible (s ++ t) = visible s ++ visible t :=
  List.flatMap_append

theorem visible_eq_self (h : '\r' ∉ line) : visible line = line := by
  induction line with
  | nil => rfl
  | cons c line ih =>
    rw [List.mem_cons, not_or] at h
    rw [visible_cons, if_neg (Ne.symm h.1), ih h.2, List.singleton_append]

theorem return_not_mem_visible (line : Text) : '\r' ∉ visible line := by
  intro h
  obtain ⟨c, -, hc⟩ := List.mem_flatMap.mp h
  split_ifs at hc with hreturn
  · exact absurd hc (by decide)
  · exact hreturn (List.mem_singleton.mp hc).symm

theorem count_visible (hc : c ≠ '\r') (line : Text) :
    (visible line).count c = line.count c + line.count '\r' * ['\\', 'r'].count c := by
  induction line with
  | nil => simp [visible]
  | cons d line ih =>
    rw [visible_cons, List.count_append, ih]
    by_cases hd : d = '\r'
    · subst hd
      rw [if_pos rfl, List.count_cons_of_ne (Ne.symm hc), List.count_cons_self, Nat.succ_mul]
      omega
    · rw [if_neg hd, List.count_cons_of_ne hd, List.count_cons (l := line), List.count_singleton]
      omega

/-! The lines as one text -/

def asText (lines : List Text) : Text := lines.flatMap (· ++ ['\n'])

theorem count_asText (hc : c ≠ '\n') (lines : List Text) :
    (asText lines).count c = lines.flatten.count c := by
  have hfeed : ['\n'].count c = 0 := List.count_eq_zero_of_not_mem (by simpa using hc)
  induction lines with
  | nil => rfl
  | cons line lines ih =>
    rw [asText, List.flatMap_cons, ← asText, List.count_append, List.count_append, ih, hfeed,
      List.flatten_cons, List.count_append, Nat.add_zero]

theorem length_looseLines_asText (h : ∀ l ∈ lines, '\n' ∉ l) (hreturn : ∀ l ∈ lines, '\r' ∉ l) :
    (Text.looseLines (asText lines)).length = lines.flatten.countP Text.isLineBreak +
    lines.length := by
  rw [asText, Text.looseLines_flatMap h]
  clear h
  induction lines with
  | nil => rfl
  | cons line lines ih =>
    obtain ⟨hline, hlines⟩ := List.forall_mem_cons.mp hreturn
    rw [List.flatMap_cons, List.length_append, ih hlines, Text.length_looseLines hline,
      List.flatten_cons, List.countP_append, List.length_cons]
    omega

theorem not_mem_looseLines (hc : Text.isLineBreak c = true) (s : Text) :
    c ∉ (Text.looseLines s).flatten := by
  intro h
  obtain ⟨l, hl, hmem⟩ := List.mem_flatten.mp h
  exact absurd (Text.isLineBreak_of_mem_looseLines hl c hmem) (by simp [hc])

section
variable [Painter]

/-! One line -/

theorem renderLine_cases (color : Bool) (line : Text) :
    renderLine color line = visible line ∨
      ∃ paints, renderLine color line = Painter.paint paints (visible line) := by
  unfold renderLine
  split
  · exact Or.inr ⟨_, rfl⟩
  · exact Or.inr ⟨_, rfl⟩
  · exact Or.inr ⟨_, rfl⟩
  · exact Or.inl rfl

theorem renderLine_unsigned (hminus : c ≠ '-') (hplus : c ≠ '+') (hhunk : c ≠ '@') (color : Bool)
    (line : Text) :
    renderLine color (c :: line) = visible (c :: line) := by
  rw [renderLine]
  · rfl
  · exact fun _ _ h => hminus (List.cons.inj h).1
  · exact fun _ _ h => hplus (List.cons.inj h).1
  · exact fun _ _ h => hhunk (List.cons.inj h).1

theorem renderLine_visible (color : Bool) (line : Text) :
    renderLine color (visible line) = renderLine color line := by
  have hvisible : visible (visible line) = visible line :=
    visible_eq_self (return_not_mem_visible line)
  cases color with
  | false => exact hvisible
  | true =>
    cases line with
    | nil => rfl
    | cons c line =>
      by_cases hreturn : c = '\r'
      · subst hreturn
        rw [renderLine_unsigned (by decide) (by decide) (by decide)]
        exact (renderLine_unsigned (by decide) (by decide) (by decide) true _).trans hvisible
      · -- the sign in front of the line stays what it is, and tells the colour
        have hfront : visible (c :: line) = c :: visible line := by
          rw [visible_cons, if_neg hreturn, List.singleton_append]
        by_cases hsign : c = '-' ∨ c = '+' ∨ c = '@'
        · rcases hsign with rfl | rfl | rfl <;> exact congrArg (Painter.paint _) hvisible
        · simp only [not_or] at hsign
          rw [hfront, renderLine_unsigned hsign.1 hsign.2.1 hsign.2.2,
            renderLine_unsigned hsign.1 hsign.2.1 hsign.2.2, ← hfront, hvisible]

theorem render_visible (color : Bool) (lines : List Text) :
    render color (lines.map visible) = render color lines := by
  simp only [render, List.flatMap_map, renderLine_visible]

theorem renderText_asText (h : ∀ l ∈ lines, '\n' ∉ l) (color : Bool) :
    renderText color (asText lines) =
    render color (lines.flatMap fun l => Text.looseLines (l ++ ['\n'])) := by
  rw [renderText, asText, Text.looseLines_flatMap h]

section
variable (hpaint : OnlyMarks)
include hpaint

theorem count_renderLine (hc : isShown c = true) (color : Bool) (line : Text) :
    (renderLine color line).count c = (visible line).count c := by
  rcases renderLine_cases color line with h | ⟨paints, h⟩
  · rw [h]
  · rw [h, hpaint.count_paint hc]

theorem feed_not_mem_renderLine (h : '\n' ∉ line) (color : Bool) :
    '\n' ∉ renderLine color line := by
  rw [← List.count_eq_zero, count_renderLine hpaint (by decide), count_visible (by decide),
    List.count_eq_zero_of_not_mem h]
  simp

/-! All lines -/

theorem count_render (hc : isShown c = true) (color : Bool) (lines : List Text) :
    (render color lines).count c = (visible lines.flatten).count c + lines.length *
    ['\n'].count c := by
  induction lines with
  | nil => simp [render, visible]
  | cons line lines ih =>
    rw [render, List.flatMap_cons, ← render, List.count_append, List.count_append, ih,
      count_renderLine hpaint hc, List.flatten_cons, visible_append, List.count_append,
      List.length_cons, Nat.succ_mul]
    omega

theorem count_backslash_render (color : Bool) (lines : List Text) :
    (render color lines).count '\\' = lines.flatten.count '\\' + lines.flatten.count '\r' := by
  rw [count_render hpaint (by decide), count_visible (by decide)]
  simp

theorem count_feed_render (color : Bool) (lines : List Text) :
    (render color lines).count '\n' = lines.flatten.count '\n' + lines.length := by
  rw [count_render hpaint (by decide), count_visible (by decide)]
  simp

theorem return_not_mem_render (color : Bool) (lines : List Text) : '\r' ∉ render color lines := by
  rw [← List.count_eq_zero, count_render hpaint (by decide),
    List.count_eq_zero_of_not_mem (return_not_mem_visible _)]
  simp

theorem lines_render (h : ∀ l ∈ lines, '\n' ∉ l) (color : Bool) :
    Text.lines (render color lines) = lines.map (renderLine color) ++ [[]] := by
  induction lines with
  | nil => rfl
  | cons line lines ih =>
    obtain ⟨hline, hlines⟩ := List.forall_mem_cons.mp h
    have hfirst : Text.lines (renderLine color line) = [renderLine color line] :=
      Text.splitOn_of_not_mem (feed_not_mem_renderLine hpaint hline color)
    rw [render, List.flatMap_cons, ← render, List.append_assoc, List.singleton_append,
      Text.lines_append, ih hlines, hfirst]
    rfl

/-- Where both forms are shown alike no line is broken: the backslashes tell that no carriage return
is in a line, and then the line feeds that no other break is. -/
theorem unbroken_of_renderText_eq (h : ∀ l ∈ lines, '\n' ∉ l)
    (heq : renderText color (asText lines) = render color lines) :
    ∀ l ∈ lines, ∀ c ∈ l, Text.isLineBreak c = false := by
  have hreturn : lines.flatten.count '\r' = 0 := by
    have hcount := congrArg (List.count '\\') heq
    rw [renderText, count_backslash_render hpaint, count_backslash_render hpaint,
      Text.count_looseLines (by decide), count_asText (by decide),
      List.count_eq_zero_of_not_mem (not_mem_looseLines (by decide) _)] at hcount
    omega
  have hreturns : ∀ l ∈ lines, '\r' ∉ l := fun l hl hmem =>
    List.count_eq_zero.mp hreturn (List.mem_flatten_of_mem hl hmem)
  have hfeed : lines.flatten.count '\n' = 0 := List.count_eq_zero.mpr fun hmem => by
    obtain ⟨l, hl, hmem⟩ := List.mem_flatten.mp hmem
    exact h l hl hmem
  have hcount := congrArg (List.count '\n') heq
  rw [renderText, count_feed_render hpaint, count_feed_render hpaint, hfeed,
    length_looseLines_asText h hreturns,
    List.count_eq_zero_of_not_mem (not_mem_looseLines (by decide) _)] at hcount
  have hnone : lines.flatten.countP Text.isLineBreak = 0 := by omega
  intro l hl c hc
  simpa using List.countP_eq_zero.mp hnone c (List.mem_flatten_of_mem hl hc)

end

/-- A list of lines is shown in as many lines, and in each the carriage returns as a backslash and a
letter are. The same lines as one text are cut at all line breaks, so that both forms are shown
alike exactly where no line has a break. -/
theorem renderText_eq_render_iff {lines : List Text} (hpaint : OnlyMarks)
    (h : ∀ l ∈ lines, '\n' ∉ l) (color : Bool) :
    (renderText color (asText lines) = render color lines ↔
      ∀ l ∈ lines, ∀ c ∈ l, Text.isLineBreak c = false) ∧
      renderText color (asText lines) =
      render color (lines.flatMap fun l => Text.looseLines (l ++ ['\n'])) ∧
      Text.lines (render color lines) = lines.map (renderLine color) ++ [[]] ∧
      render color lines = render color (lines.map visible) ∧ '\r' ∉ render color lines := by
  refine ⟨⟨unbroken_of_renderText_eq hpaint h, fun hunbroken => ?_⟩, renderText_asText h color,
    lines_render hpaint h color, (render_visible color lines).symm,
    return_not_mem_render hpaint color lines⟩
  have hsingle : ∀ l ∈ lines, Text.looseLines (l ++ ['\n']) = [l] :=
    fun l hl => Text.looseLines_unbroken (hunbroken l hl)
  rw [renderText_asText h, List.flatMap_congr hsingle, List.flatMap_singleton']

end

section
open scoped Masthead.Backend

theorem renderText_eq_render_tab :
    (∀ l ∈ ["-a".toList, "+\tb".toList], '\n' ∉ l) ∧
      renderText true (asText ["-a".toList, "+\tb".toList]) =
      render true ["-a".toList, "+\tb".toList] := by
  have hlines : ∀ l ∈ ["-a".toList, "+\tb".toList], '\n' ∉ l := by decide
  have hunbroken : ∀ l ∈ ["-a".toList, "+\tb".toList], ∀ c ∈ l, Text.isLineBreak c = false :=
    List.forall_mem_cons.mpr ⟨Text.forall_mem_of_all (by decide),
      List.forall_mem_singleton.mpr (Text.forall_mem_of_all (by decide))⟩
  exact ⟨hlines, (renderText_eq_render_iff Backend.Style.onlyMarks hlines true).1.mpr hunbroken⟩

/-- The carriage return of an added line is shown in the list and lost in the text. -/
theorem renderText_drops_return :
    '\n' ∉ "+x\r".toList ∧ renderText false (asText ["+x\r".toList]) ≠
    render false ["+x\r".toList] ∧
      render false ["+x\r".toList] = "+x\\r\n".toList ∧ renderText false (asText ["+x\r".toList]) =
      "+x\n".toList := by
  decide

end

end Masthead.Diff
