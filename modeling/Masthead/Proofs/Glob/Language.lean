import Masthead.Glob
import Mathlib.Data.List.Forall2

/-! The language of path patterns. A pattern is cut into tokens from left to right, each token
stands for a set of texts, and a pattern matches the paths that are made of such texts in the order
of its tokens. -/

namespace Masthead
namespace Glob

inductive Token.Takes : Token → Text → Prop where
  | literal (c : Char) : Takes (.literal c) [c]
  | one {c : Char} (hc : c ≠ '/') : Takes .one [c]
  | name {s : Text} (hs : '/' ∉ s) : Takes .name s
  | anything (s : Text) : Takes .anything s
  | noSegment : Takes .segments []
  | segments (s : Text) : Takes .segments (s ++ ['/'])

/-- At the start of a pattern, and behind a slash, a name may begin. -/
def AtName (before : Text) : Prop := before = [] ∨ before.getLast? = some '/'

instance (before : Text) : Decidable (AtName before) :=
  inferInstanceAs (Decidable (before = [] ∨ before.getLast? = some '/'))

/-- The text of a pattern that follows `before` is cut into tokens. -/
inductive Cut : Text → Text → Glob → Prop where
  | ended (before : Text) : Cut before [] []
  | segments {before rest : Text} {glob : Glob} (hname : AtName before)
      (hrest : Cut (before ++ ['*', '*', '/']) rest glob) :
      Cut before ('*' :: '*' :: '/' :: rest) (.segments :: glob)
  | anything {before rest : Text} {glob : Glob} (hother : ¬ (AtName before ∧ rest.head? = some '/'))
      (hrest : Cut (before ++ ['*', '*']) rest glob) : Cut before ('*' :: '*' :: rest)
      (.anything :: glob)
  | name {before rest : Text} {glob : Glob} (hsingle : rest.head? ≠ some '*')
      (hrest : Cut (before ++ ['*']) rest glob) : Cut before ('*' :: rest) (.name :: glob)
  | one {before rest : Text} {glob : Glob} (hrest : Cut (before ++ ['?']) rest glob) :
      Cut before ('?' :: rest) (.one :: glob)
  | literal {before rest : Text} {glob : Glob} {c : Char} (hstar : c ≠ '*') (hmark : c ≠ '?')
      (hrest : Cut (before ++ [c]) rest glob) : Cut before (c :: rest) (.literal c :: glob)

/-- The path is made of texts that the tokens of the pattern stand for, one after the other. -/
def Describes (pattern path : Text) : Prop :=
  ∃ glob, Cut [] pattern glob ∧ ∃ pieces, List.Forall₂ Token.Takes glob pieces ∧
    path = pieces.flatten

section Cut
variable {before rest : Text} {glob : Glob}

theorem atName_nil : AtName [] := Or.inl rfl

theorem atName_append {s : Text} (hs : s ≠ []) (before : Text) :
    AtName (before ++ s) ↔ s.getLast? = some '/' := by
  simp [AtName, hs]

/-- Behind a slash a name may begin, behind any other character none. -/
theorem cut_tokensFrom {bounded : Bool} (hb : bounded = true ↔ AtName before) :
    Cut before rest (tokensFrom bounded rest) := by
  -- `bounded` tells of the text before the place what the cut reads off that text
  fun_induction tokensFrom bounded rest generalizing before with
  | case1 rest ih =>
    exact .segments (hb.mp rfl) (ih (by simp [atName_append]))
  | case2 bounded rest hbounded ih =>
    have hslash : Cut (before ++ ['*', '*']) ('/' :: rest) (.literal '/' :: tokensFrom true rest) :=
      .literal (by decide) (by decide) (ih (by simp [atName_append]))
    exact .anything (fun h => hbounded (hb.mpr h.1)) hslash
  | case3 bounded rest hslash ih =>
    refine .anything (fun h => ?_) (ih (by simp [atName_append]))
    obtain ⟨more, rfl⟩ := List.head?_eq_some_iff.mp h.2
    exact hslash more rfl
  | case4 bounded rest _ hstar ih =>
    refine .name (fun h => ?_) (ih (by simp [atName_append]))
    obtain ⟨more, rfl⟩ := List.head?_eq_some_iff.mp h
    exact hstar more rfl
  | case5 bounded rest ih => exact .one (ih (by simp [atName_append]))
  | case6 bounded c rest _ _ hstar hmark ih =>
      exact .literal hstar hmark (ih (by simp [atName_append]))
  | case7 => exact .ended before

theorem Cut.unique {glob' : Glob} (h : Cut before rest glob) (h' : Cut before rest glob') :
    glob = glob' := by
  induction h generalizing glob' with
  | ended => cases h'; rfl
  | segments hname hrest ih =>
    cases h' with
    | segments _ hrest' => rw [ih hrest']
    | anything hother _ => exact absurd ⟨hname, rfl⟩ hother
    | name hsingle _ => exact absurd rfl hsingle
    | literal hstar _ _ => exact absurd rfl hstar
  | anything hother hrest ih =>
    cases h' with
    | segments hname _ => exact absurd ⟨hname, rfl⟩ hother
    | anything _ hrest' => rw [ih hrest']
    | name hsingle _ => exact absurd rfl hsingle
    | literal hstar _ _ => exact absurd rfl hstar
  | name hsingle hrest ih =>
    cases h' with
    | segments _ _ => exact absurd rfl hsingle
    | anything _ _ => exact absurd rfl hsingle
    | name _ hrest' => rw [ih hrest']
    | literal hstar _ _ => exact absurd rfl hstar
  | one hrest ih =>
    cases h' with
    | one hrest' => rw [ih hrest']
    | literal _ hmark _ => exact absurd rfl hmark
  | literal hstar hmark hrest ih =>
    cases h' with
    | literal _ _ hrest' => rw [ih hrest']
    | one _ => exact absurd rfl hmark
    | _ => exact absurd rfl hstar

theorem cut_iff {pattern : Text} : Cut [] pattern glob ↔ glob = ofText pattern := by
  have hcut : Cut [] pattern (ofText pattern) := cut_tokensFrom (iff_of_true rfl atName_nil)
  exact ⟨fun h => h.unique hcut, fun h => h ▸ hcut⟩

end Cut

section Accepts
variable {path : Text}

theorem run_iff {allowed : Char → Bool} {next : Text → Bool} :
    run allowed next path = true ↔ ∃ s rest, (∀ c ∈ s, allowed c = true) ∧ path = s ++ rest ∧
    next rest = true := by
  induction path with
  | nil => simp [run]
  | cons c path ih =>
    rw [run, Bool.or_eq_true, Bool.and_eq_true, ih]
    constructor
    · rintro (hnext | ⟨hc, s, rest, hs, rfl, hnext⟩)
      · exact ⟨[], c :: path, by simp, rfl, hnext⟩
      · exact ⟨c :: s, rest, List.forall_mem_cons.mpr ⟨hc, hs⟩, rfl, hnext⟩
    · rintro ⟨_ | ⟨x, s⟩, rest, hs, hpath, hnext⟩
      · exact Or.inl (by rwa [hpath])
      · obtain ⟨rfl, rfl⟩ := List.cons.inj hpath
        obtain ⟨hc, hs⟩ := List.forall_mem_cons.mp hs
        exact Or.inr ⟨hc, s, rest, hs, rfl, hnext⟩

theorem throughSlash_iff {next : Text → Bool} :
    throughSlash next path = true ↔ ∃ s rest, path = s ++ ['/'] ++ rest ∧ next rest = true := by
  induction path with
  | nil => simp [throughSlash]
  | cons c path ih =>
    rw [throughSlash, Bool.or_eq_true, Bool.and_eq_true, beq_iff_eq, ih]
    constructor
    · rintro (⟨rfl, hnext⟩ | ⟨s, rest, rfl, hnext⟩)
      · exact ⟨[], path, rfl, hnext⟩
      · exact ⟨c :: s, rest, rfl, hnext⟩
    · rintro ⟨_ | ⟨x, s⟩, rest, hpath, hnext⟩
      · obtain ⟨rfl, rfl⟩ := List.cons.inj hpath
        exact Or.inl ⟨rfl, hnext⟩
      · obtain ⟨rfl, rfl⟩ := List.cons.inj hpath
        exact Or.inr ⟨s, rest, rfl, hnext⟩

theorem accepts_cons_iff {token : Token} {glob : Glob} :
    accepts (token :: glob) path = true ↔ ∃ s rest, token.Takes s ∧ path = s ++ rest ∧
    accepts glob rest = true := by
  cases token with
  | literal c =>
    constructor
    · intro h
      cases path with
      | nil => cases h
      | cons x path =>
        rw [accepts, Bool.and_eq_true, beq_iff_eq] at h
        exact ⟨[c], path, .literal c, by rw [h.1]; rfl, h.2⟩
    · rintro ⟨s, rest, hs, rfl, h⟩
      cases hs with
      | literal => simpa [accepts] using h
  | one =>
    constructor
    · intro h
      cases path with
      | nil => cases h
      | cons x path =>
        rw [accepts, Bool.and_eq_true, bne_iff_ne] at h
        exact ⟨[x], path, .one h.1, rfl, h.2⟩
    · rintro ⟨s, rest, hs, rfl, h⟩
      cases hs with
      | one hc => simpa [accepts, hc] using h
  | name =>
    rw [accepts, run_iff]
    constructor
    · rintro ⟨s, rest, hs, rfl, h⟩
      exact ⟨s, rest, .name fun hslash => by simpa using hs '/' hslash, rfl, h⟩
    · rintro ⟨s, rest, hs, rfl, h⟩
      cases hs with
      | name hslash =>
        exact ⟨s, rest, fun c hc => bne_iff_ne.mpr fun heq => hslash (heq ▸ hc), rfl, h⟩
  | anything =>
    rw [accepts, run_iff]
    constructor
    · rintro ⟨s, rest, -, rfl, h⟩
      exact ⟨s, rest, .anything s, rfl, h⟩
    · rintro ⟨s, rest, -, rfl, h⟩
      exact ⟨s, rest, fun _ _ => rfl, rfl, h⟩
  | segments =>
    rw [accepts, Bool.or_eq_true, throughSlash_iff]
    constructor
    · rintro (h | ⟨s, rest, rfl, h⟩)
      · exact ⟨[], path, .noSegment, rfl, h⟩
      · exact ⟨s ++ ['/'], rest, .segments s, rfl, h⟩
    · rintro ⟨s, rest, hs, rfl, h⟩
      cases hs with
      | noSegment => exact Or.inl h
      | segments s => exact Or.inr ⟨s, rest, rfl, h⟩

theorem accepts_iff {glob : Glob} :
    glob.accepts path = true ↔
      ∃ pieces rest, List.Forall₂ Token.Takes glob pieces ∧ path = pieces.flatten ++ rest ∧
        acceptsEnd rest = true := by
  induction glob generalizing path with
  | nil =>
    rw [accepts]
    constructor
    · exact fun h => ⟨[], path, .nil, rfl, h⟩
    · rintro ⟨pieces, rest, hpieces, rfl, h⟩
      cases hpieces
      exact h
  | cons token glob ih =>
    rw [accepts_cons_iff]
    constructor
    · rintro ⟨s, rest, hs, rfl, h⟩
      obtain ⟨pieces, left, hpieces, rfl, hend⟩ := ih.mp h
      exact ⟨s :: pieces, left, .cons hs hpieces, by simp, hend⟩
    · rintro ⟨pieces, left, hpieces, rfl, hend⟩
      cases hpieces with
      | cons hs hrest =>
        refine ⟨_, _, hs, ?_, ih.mpr ⟨_, left, hrest, rfl, hend⟩⟩
        rw [List.flatten_cons, List.append_assoc]

theorem acceptsEnd_of_line (h : '\n' ∉ path) : acceptsEnd path = true ↔ path = [] := by
  simp only [acceptsEnd, Bool.or_eq_true, List.isEmpty_iff, beq_iff_eq, or_iff_left_iff_imp]
  rintro rfl
  simp at h

end Accepts
end Glob

/-- A pattern matches a path of one line exactly if the path is made of texts that its tokens stand
for. -/
theorem matchesGlob_iff_describes (pattern : Text) {path : Text} (h : '\n' ∉ path) :
    (matchesGlob path pattern = true ↔ Glob.Describes pattern path) ∧
      ((Glob.ofText pattern).accepts path = true ↔ Glob.Describes pattern path) := by
  rw [matchesGlob, and_self, Glob.accepts_iff]
  simp only [Glob.Describes, Glob.cut_iff, exists_eq_left]
  constructor
  · rintro ⟨pieces, rest, hpieces, rfl, hend⟩
    have hrest : '\n' ∉ rest := fun hmem => h (List.mem_append_right _ hmem)
    obtain rfl := (Glob.acceptsEnd_of_line hrest).mp hend
    exact ⟨pieces, hpieces, List.append_nil _⟩
  · rintro ⟨pieces, hpieces, rfl⟩
    exact ⟨pieces, [], hpieces, (List.append_nil _).symm, rfl⟩

theorem matchesGlob_iff_describes_nested :
    '\n' ∉ "src/a/b/x1.ts".toList ∧ Glob.Describes "src/**/x?.ts".toList "src/a/b/x1.ts".toList :=
  have hline : '\n' ∉ "src/a/b/x1.ts".toList := by decide
  ⟨hline, (matchesGlob_iff_describes "src/**/x?.ts".toList hline).1.mp (by decide)⟩

end Masthead
