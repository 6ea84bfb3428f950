import Masthead.Proofs.Source.Preamble

/-! Edits of the text behind a preamble. The first one ends an interpreter line that has no line
feed yet. Apart from that the preamble stays what it is, however often the text is taken apart,
edited and put together again. -/

namespace Masthead.Source

def onBody (edit : Text → Text) (s : Text) : Text :=
  joinPreamble (splitPreamble s).1 (edit (splitPreamble s).2)

/-- None of the edits, each made on what the ones before it leave, gives a body that begins like a
preamble. -/
def LeaveBare : List (Text → Text) → Text → Prop
  | [], _ => True
  | edit :: edits, body => Bare (edit body) ∧ LeaveBare edits (edit body)

theorem Closed.not_unclosed {pre : Text} (h : Closed pre) : ¬ Unclosed pre := by
  intro hopen
  cases h with
  | nil =>
    have hlength := hopen.1.length_le
    simp at hlength
  | mark =>
    have hlength := hopen.1.length_le
    simp at hlength
  | directive hl =>
    apply hopen.2
    simp
  | both hl =>
    apply hopen.2
    simp

theorem closePreamble_eq (s : Text) :
    closePreamble (splitPreamble s).1 =
      if Unclosed (splitPreamble s).1 then (splitPreamble s).1 ++ ['\n']
      else (splitPreamble s).1 := by
  rcases splitPreamble_fst s with h | ⟨-, l, hl, h | h⟩
  · rw [if_neg h.not_unclosed, h.closePreamble_eq]
  · rw [h, if_pos (unclosed_directive hl), (unclosed_directive hl).closePreamble_eq]
  · rw [h, if_pos (unclosed_both hl), (unclosed_both hl).closePreamble_eq]

section Edits
variable {s : Text}

theorem splitPreamble_joinPreamble (s : Text) {body : Text} (hb : Bare body) :
    splitPreamble (joinPreamble (splitPreamble s).1 body) =
    (closePreamble (splitPreamble s).1, body) :=
  (closed_closePreamble s).splitPreamble_append hb

theorem splitPreamble_onBody {edit : Text → Text} (hb : Bare (edit (splitPreamble s).2)) :
    splitPreamble (onBody edit s) = (closePreamble (splitPreamble s).1, edit (splitPreamble s).2) :=
  splitPreamble_joinPreamble s hb

theorem splitPreamble_foldl {edits : List (Text → Text)}
    (hedits : LeaveBare edits (splitPreamble s).2) (hclosed : Closed (splitPreamble s).1) :
    splitPreamble (edits.foldl (fun t edit => onBody edit t) s) =
      ((splitPreamble s).1, edits.foldl (fun body edit => edit body) (splitPreamble s).2) := by
  induction edits generalizing s with
  | nil => rfl
  | cons edit edits ih =>
    have hstep := splitPreamble_onBody hedits.1
    rw [hclosed.closePreamble_eq] at hstep
    have hrest := @ih (onBody edit s)
    rw [hstep] at hrest
    exact hrest hedits.2 hclosed

/-- A text is its preamble and its body, the preamble a byte order mark and an interpreter line.
Whatever body is put behind the preamble, the two come apart again as they were put together, but
for the line feed of an interpreter line that had none; and a row of edits leaves this preamble,
once, in front of the body that the edits give. -/
theorem preamble_survives {s pre body : Text} (h : splitPreamble s = (pre, body)) :
    pre ++ body = s ∧
      (∃ line, IsDirective line body ∧
        pre = if s.head? = some byteOrderMark then byteOrderMark :: line else line) ∧
      (∀ b, Bare b →
        splitPreamble (joinPreamble pre b) = (if Unclosed pre then pre ++ ['\n'] else pre, b)) ∧
      ∀ edits : List (Text → Text), edits ≠ [] → LeaveBare edits body →
        splitPreamble (edits.foldl (fun t edit => onBody edit t) s) =
          (if Unclosed pre then pre ++ ['\n'] else pre,
            edits.foldl (fun b edit => edit b) body) := by
  obtain rfl : (splitPreamble s).1 = pre := congrArg Prod.fst h
  obtain rfl : (splitPreamble s).2 = body := congrArg Prod.snd h
  rw [← closePreamble_eq s]
  refine ⟨splitPreamble_join s, splitPreamble_cases s,
    fun b hb => splitPreamble_joinPreamble s hb, fun edits hne hedits => ?_⟩
  obtain ⟨edit, edits, rfl⟩ := List.exists_cons_of_ne_nil hne
  have hstep := splitPreamble_onBody hedits.1
  have hrest := @splitPreamble_foldl (onBody edit s) edits
  rw [hstep] at hrest
  exact hrest hedits.2 (closed_closePreamble s)

def interpreter : Text := byteOrderMark :: "#!/bin/sh".toList

theorem preamble_survives_interpreter :
    splitPreamble interpreter = (interpreter, []) ∧ Bare "echo\n".toList ∧
      splitPreamble (joinPreamble interpreter "echo\n".toList) =
      (interpreter ++ ['\n'], "echo\n".toList) ∧
      splitPreamble (onBody (List.cons '\n') (onBody (fun _ => "echo\n".toList) interpreter)) =
        (interpreter ++ ['\n'], "\necho\n".toList) := by
  have hsplit : splitPreamble interpreter = (interpreter, []) := by decide
  have hopen : Unclosed interpreter := unclosed_both (show '\n' ∉ "/bin/sh".toList by decide)
  have hbare : Bare "echo\n".toList := ⟨by decide, by decide⟩
  have hedited : Bare "\necho\n".toList := ⟨by decide, by decide⟩
  obtain ⟨-, -, hjoin, hrun⟩ := preamble_survives hsplit
  rw [if_pos hopen] at hjoin hrun
  have hbodies : LeaveBare [fun _ => "echo\n".toList, List.cons '\n'] [] :=
    ⟨hbare, hedited, trivial⟩
  exact ⟨hsplit, hbare, hjoin _ hbare, hrun _ (List.cons_ne_nil _ _) hbodies⟩

end Edits
end Masthead.Source
