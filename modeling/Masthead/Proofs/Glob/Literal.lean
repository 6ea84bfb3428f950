import Masthead.Glob.Regex
import Masthead.Proofs.Glob.Language
import Masthead.Proofs.Text.Beginning

/-! Patterns without wildcards. As a regular expression such a pattern spells itself and nothing
else, but the end of the expression holds before a line feed too, so that it matches one path more
than the one it names. -/

namespace Masthead
namespace Glob
variable {pattern path : Text}

theorem tokensFrom_literal (hstar : '*' ∉ pattern) (hmark : '?' ∉ pattern) (bounded : Bool) :
    tokensFrom bounded pattern = pattern.map Token.literal := by
  induction pattern generalizing bounded with
  | nil => rfl
  | cons c pattern ih =>
    rw [List.mem_cons, not_or] at hstar hmark
    rw [tokensFrom, ih hstar.2 hmark.2, List.map_cons]
    · exact fun _ hc => absurd hc.symm hstar.1
    · exact fun _ hc => absurd hc.symm hstar.1
    · exact fun hc => absurd hc.symm hstar.1
    · exact fun hc => absurd hc.symm hmark.1

theorem acceptsEnd_iff : acceptsEnd path = true ↔ path = [] ∨ path = ['\n'] := by
  simp only [acceptsEnd, Bool.or_eq_true, List.isEmpty_iff, beq_iff_eq]

theorem accepts_literals (s path : Text) :
    accepts (s.map Token.literal) path = true ↔ path = s ∨ path = s ++ ['\n'] := by
  induction s generalizing path with
  | nil => exact acceptsEnd_iff
  | cons c s ih =>
    cases path with
    | nil => simp [accepts]
    | cons x path =>
      rw [List.map_cons, accepts, Bool.and_eq_true, beq_iff_eq, ih, List.cons_append,
        List.cons.injEq, List.cons.injEq, and_or_left]

/-! Spelling in regular expressions -/

def metacharacters : List Char := ".^$*+?\x7b\x7d[]\\|()".toList

/-- The source of a regular expression that stands for one text alone: character by character, where
a backslash takes the meaning of its own from the character behind it, unless that is a letter or a
digit. -/
inductive Spells : Text → Text → Prop where
  | nil : Spells [] []
  | plain {c : Char} {source s : Text} (hc : c ∉ metacharacters) (h : Spells source s) : Spells
      (c :: source) (c :: s)
  | escaped {c : Char} {source s : Text} (hc : c.isAlphanum = false) (h : Spells source s) :
      Spells ('\\' :: c :: source) (c :: s)

theorem Spells.unique {source s t : Text} (h : Spells source s) (h' : Spells source t) : s = t := by
  have hbackslash : '\\' ∈ metacharacters := by decide
  induction h generalizing t with
  | nil =>
    cases h'
    rfl
  | plain hc _ ih =>
    cases h' with
    | plain _ h' => rw [ih h']
    | escaped _ _ => exact absurd hbackslash hc
  | escaped _ _ ih =>
    cases h' with
    | plain hc _ => exact absurd hbackslash hc
    | escaped _ h' => rw [ih h']

theorem not_isAlphanum_of_isSpecial {c : Char} (h : isSpecial c = true) : c.isAlphanum = false := by
  rw [isSpecial, List.contains_iff_mem] at h
  exact Text.forall_mem_of_all (p := fun d => d.isAlphanum = false) (by decide) c h

theorem isSpecial_of_mem_metacharacters {c : Char} (h : c ∈ metacharacters) : isSpecial c = true :=
  Text.forall_mem_of_all (p := fun d => isSpecial d = true) (by decide) c h

theorem regex_literal (c : Char) :
    (Token.literal c).regex = if isSpecial c = true then ['\\', c] else [c] := rfl

theorem spells_literals (s : Text) : Spells ((s.map Token.literal).flatMap Token.regex) s := by
  induction s with
  | nil => exact .nil
  | cons c s ih =>
    rw [List.map_cons, List.flatMap_cons, regex_literal]
    by_cases hc : isSpecial c = true
    · rw [if_pos hc]
      exact .escaped (not_isAlphanum_of_isSpecial hc) ih
    · rw [if_neg hc]
      exact .plain (fun hmem => hc (isSpecial_of_mem_metacharacters hmem)) ih

end Glob

theorem matchesAnyGlob_cons (path pattern : Text) (patterns : List Text) :
    matchesAnyGlob path (pattern :: patterns) =
    (matchesGlob path pattern || matchesAnyGlob path patterns) :=
  List.any_cons

theorem mem_filterPaths {path : Text} {paths includes excludes : List Text} :
    path ∈ filterPaths paths includes excludes ↔
      path ∈ paths ∧ matchesAnyGlob path excludes = false ∧
      matchesAnyGlob path includes = true := by
  simp only [filterPaths, List.mem_filter, Bool.and_eq_true, Bool.not_eq_true']

/-- A pattern without wildcards matches the path that it spells and this path with a line feed
behind it. On all other paths it has no say, be it among the patterns to include or among those to
exclude. The line feed comes from the end of the regular expression alone, for between its ends the
expression spells nothing but the pattern. -/
theorem matchesGlob_literal {pattern : Text} (hstar : '*' ∉ pattern) (hmark : '?' ∉ pattern) :
    (∀ path, matchesGlob path pattern = true ↔ path = pattern ∨ path = pattern ++ ['\n']) ∧
      (∀ path, path ≠ pattern → path ≠ pattern ++ ['\n'] → ∀ paths includes excludes,
        (path ∈ filterPaths paths (pattern :: includes) excludes ↔
          path ∈ filterPaths paths includes excludes) ∧
          (path ∈ filterPaths paths includes (pattern :: excludes) ↔
            path ∈ filterPaths paths includes excludes)) ∧
      ∃ source, (Glob.ofText pattern).regex = '^' :: source ++ ['$'] ∧ ∀ s, Glob.Spells source s ↔
        s = pattern := by
  have htokens : Glob.ofText pattern = pattern.map Glob.Token.literal :=
    Glob.tokensFrom_literal hstar hmark true
  have hmatches (path : Text) : matchesGlob path pattern = true ↔
      path = pattern ∨ path = pattern ++ ['\n'] := by
    rw [matchesGlob, htokens, Glob.accepts_literals]
  refine ⟨hmatches, fun path hne hne' paths includes excludes => ?_, ?_⟩
  · have hother : matchesGlob path pattern = false := by
      rw [← Bool.not_eq_true, hmatches, not_or]
      exact ⟨hne, hne'⟩
    simp only [mem_filterPaths, matchesAnyGlob_cons, hother, Bool.false_or, and_self]
  · have hspells := Glob.spells_literals pattern
    refine ⟨_, by rw [Glob.regex, htokens], fun s => ⟨fun h => h.unique hspells, ?_⟩⟩
    rintro rfl
    exact hspells

theorem matchesGlob_literal_brackets :
    '*' ∉ "[id].ts".toList ∧ '?' ∉ "[id].ts".toList ∧
    matchesGlob "[id].ts".toList "[id].ts".toList = true ∧
      matchesGlob "i.ts".toList "[id].ts".toList = false := by
  have hstar : '*' ∉ "[id].ts".toList := by decide
  have hmark : '?' ∉ "[id].ts".toList := by decide
  have hmatches := (matchesGlob_literal hstar hmark).1
  refine ⟨hstar, hmark, (hmatches _).mpr (Or.inl rfl), ?_⟩
  rw [← Bool.not_eq_true, hmatches]
  decide

/-- A file whose name ends with a line feed is matched by the name without it. -/
theorem matchesGlob_other_line :
    '*' ∉ "a.ts".toList ∧ '?' ∉ "a.ts".toList ∧ "a.ts\n".toList ≠ "a.ts".toList ∧
      matchesGlob "a.ts\n".toList "a.ts".toList = true := by
  decide

end Masthead
