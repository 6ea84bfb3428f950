import Masthead.Proofs.Glob.Language

/-! Patterns and directories. A directory is compared with a pattern as its path with a slash behind
it. Most patterns that match such a path match all paths below it as well; those that end in a
slash, or in a single name behind one, need not. -/

namespace Masthead
namespace Glob

/-- A pattern that may match a directory without what is below it. -/
def Shallow (pattern : Text) : Prop :=
  pattern.getLast? = some '/' ∨ (['/', '*'] <:+ pattern ∧ ¬ ['*', '*', '/', '*'] <:+ pattern)

instance (pattern : Text) : Decidable (Shallow pattern) :=
  inferInstanceAs (Decidable (_ ∨ (_ ∧ ¬ _)))

variable {bounded : Bool} {pattern rest s x : Text} {c : Char} {token : Token} {glob : Glob}

theorem exists_last_slash (h : '/' ∈ s) : ∃ u z, s = u ++ '/' :: z ∧ '/' ∉ z := by
  obtain ⟨z, u, hs, hz⟩ := List.eq_append_cons_of_mem (List.mem_reverse.mpr h)
  refine ⟨u.reverse, z.reverse, ?_, by simpa using hz⟩
  rw [← List.reverse_reverse s, hs]
  simp

theorem Shallow.cons (h : Shallow rest) (hstar : ¬ (c = '*' ∧ rest = ['*', '/', '*'])) :
    Shallow (c :: rest) := by
  rcases h with hlast | ⟨hname, hdeep⟩
  · obtain ⟨d, more, rfl⟩ := List.exists_cons_of_ne_nil (show rest ≠ [] by rintro rfl; cases hlast)
    exact Or.inl ((List.getLast?_cons_cons).trans hlast)
  · refine Or.inr ⟨hname.trans (List.suffix_cons c rest), fun hsuffix => ?_⟩
    rcases List.suffix_cons_iff.mp hsuffix with heq | hrest
    · obtain ⟨rfl, rfl⟩ := List.cons.inj heq
      exact hstar ⟨rfl, rfl⟩
    · exact hdeep hrest

theorem not_shallow_of_cons (h : ¬ Shallow (c :: rest)) (hc : c ≠ '*') : ¬ Shallow rest :=
  fun hrest => h (hrest.cons fun hstar => hc hstar.1)

/-! What may be empty at the end of a path -/

theorem accepts_cons_nil : accepts (token :: glob) [] = true ↔
    token.Takes [] ∧ accepts glob [] = true := by
  rw [accepts_cons_iff]
  constructor
  · rintro ⟨piece, left, htakes, hnil, hleft⟩
    obtain ⟨rfl, rfl⟩ := List.append_eq_nil_iff.mp hnil.symm
    exact ⟨htakes, hleft⟩
  · rintro ⟨htakes, hglob⟩
    exact ⟨[], [], htakes, rfl, hglob⟩

theorem ne_nil_of_last (h : ('/' :: rest).getLast? ≠ some '/') : rest ≠ [] := by
  rintro rfl
  exact h rfl

theorem last_of_cons (h : (c :: rest).getLast? ≠ some '/') : rest.getLast? ≠ some '/' := by
  cases rest with
  | nil => simp
  | cons d rest => rwa [List.getLast?_cons_cons] at h

theorem accepts_name (h : accepts (tokensFrom bounded rest) [] = true) (hrest : rest ≠ [])
    (hlast : rest.getLast? ≠ some '/') (hs : '/' ∉ s) :
    accepts (tokensFrom bounded rest) s = true := by
  fun_induction tokensFrom bounded rest with
  | case1 rest ih =>
    have hend := last_of_cons (last_of_cons hlast)
    have htaken := ih (accepts_cons_nil.mp h).2 (ne_nil_of_last hend) (last_of_cons hend)
    exact accepts_cons_iff.mpr ⟨[], s, .noSegment, rfl, htaken⟩
  | case2 => cases (accepts_cons_nil.mp h).2
  | case3 bounded rest =>
    exact accepts_cons_iff.mpr ⟨s, [], .anything s, (List.append_nil s).symm,
      (accepts_cons_nil.mp h).2⟩
  | case4 bounded rest =>
    exact accepts_cons_iff.mpr ⟨s, [], .name hs, (List.append_nil s).symm,
      (accepts_cons_nil.mp h).2⟩
  | case5 => cases h
  | case6 => cases h
  | case7 => exact absurd rfl hrest

theorem accepts_segments (h : ∀ z, '/' ∉ z → accepts glob z = true) (s : Text) :
    accepts (.segments :: glob) s = true := by
  by_cases hs : '/' ∈ s
  · obtain ⟨u, z, rfl, hz⟩ := exists_last_slash hs
    exact accepts_cons_iff.mpr ⟨u ++ ['/'], z, .segments u, by simp, h z hz⟩
  · exact accepts_cons_iff.mpr ⟨[], s, .noSegment, rfl, h s hs⟩

theorem accepts_all (h : accepts (tokensFrom bounded rest) [] = true) (hrest : rest ≠ [])
    (hname : rest ≠ ['*']) (hlast : rest.getLast? ≠ some '/') (s : Text) :
    accepts (tokensFrom bounded rest) s = true := by
  rw [tokensFrom.eq_def] at h ⊢
  split at h
  · next rest =>
    have hend := last_of_cons (last_of_cons hlast)
    split_ifs at h ⊢ with hbounded
    · refine accepts_segments (fun z hz => ?_) s
      exact accepts_name (accepts_cons_nil.mp h).2 (ne_nil_of_last hend) (last_of_cons hend) hz
    · cases (accepts_cons_nil.mp h).2
  · exact accepts_cons_iff.mpr ⟨s, [], .anything s, (List.append_nil s).symm,
      (accepts_cons_nil.mp h).2⟩
  · next rest hsingle hstar =>
    -- behind a single star there is something that cannot be empty
    have hnil := (accepts_cons_nil.mp h).2
    rw [tokensFrom.eq_def] at hnil
    split at hnil
    · exact absurd rfl (hstar _)
    · exact absurd rfl (hstar _)
    · exact absurd rfl (hstar _)
    · cases hnil
    · cases hnil
    · exact absurd rfl hname
  · cases h
  · cases h
  · exact absurd rfl hrest

/-! What a pattern matches below a directory -/

theorem accepts_anything_slash (h : ∀ z, '/' ∉ z → accepts glob z = true) (hs : '/' ∈ s) :
    accepts (.anything :: .literal '/' :: glob) s = true := by
  obtain ⟨u, z, rfl, hz⟩ := exists_last_slash hs
  exact accepts_cons_iff.mpr ⟨u, '/' :: z, .anything u, rfl,
    accepts_cons_iff.mpr ⟨['/'], z, .literal '/', rfl, h z hz⟩⟩

theorem accepts_cons_below
    (hall : token.Takes (s ++ ['/']) → accepts glob [] = true →
      accepts (token :: glob) (s ++ '/' :: x) = true)
    (hrest : ∀ s, accepts glob (s ++ ['/']) = true → accepts glob (s ++ '/' :: x) = true)
    (hdir : accepts (token :: glob) (s ++ ['/']) = true) :
      accepts (token :: glob) (s ++ '/' :: x) = true := by
  obtain ⟨piece, left, htakes, hpath, hglob⟩ := accepts_cons_iff.mp hdir
  rcases List.eq_nil_or_concat' left with rfl | ⟨left, d, rfl⟩
  · rw [List.append_nil] at hpath
    exact hall (hpath ▸ htakes) hglob
  · rw [← List.append_assoc] at hpath
    obtain ⟨rfl, hd⟩ := List.append_inj' hpath rfl
    obtain rfl := List.singleton_inj.mp hd
    exact accepts_cons_iff.mpr ⟨piece, left ++ '/' :: x, htakes, List.append_assoc ..,
      hrest left hglob⟩

theorem not_shallow_behind (h : ¬ Shallow ('*' :: '*' :: '/' :: rest)) : ¬ Shallow rest := by
  intro hrest
  refine h (((hrest.cons (by simp)).cons (by simp)).cons fun hstar => ?_)
  have hname : rest = ['*'] := by simpa using hstar.2
  subst hname
  revert hrest
  decide

theorem eq_of_shallow_behind (h : ¬ Shallow ('*' :: '*' :: rest))
    (hslash : ∀ more, rest ≠ '/' :: more) (hrest : Shallow rest) : rest = ['*', '/', '*'] := by
  by_contra hother
  refine h ((hrest.cons fun hstar => hother hstar.2).cons fun hstar => ?_)
  exact hslash _ (List.cons.inj hstar.2).2

theorem accepts_anything_names (hs : '/' ∈ s) :
    accepts (.anything :: tokensFrom bounded ['*', '/', '*']) s = true := by
  obtain ⟨u, z, rfl, hz⟩ := exists_last_slash hs
  exact accepts_cons_iff.mpr ⟨u, '/' :: z, .anything u, rfl,
    accepts_cons_iff.mpr ⟨[], '/' :: z, .name (by simp), rfl,
      accepts_cons_iff.mpr ⟨['/'], z, .literal '/', rfl,
        accepts_cons_iff.mpr ⟨z, [], .name hz, (List.append_nil z).symm, rfl⟩⟩⟩⟩

theorem nil_of_takes_literal (h : (Token.literal c).Takes (s ++ ['/'])) : s = [] ∧ c = '/' := by
  generalize hpath : s ++ ['/'] = path at h
  cases h with
  | literal =>
    obtain ⟨rfl, heq⟩ := List.append_inj' (show s ++ ['/'] = [] ++ [c] from hpath) rfl
    exact ⟨rfl, (List.singleton_inj.mp heq).symm⟩

theorem not_takes_one (s : Text) : ¬ Token.one.Takes (s ++ ['/']) := by
  intro h
  generalize hpath : s ++ ['/'] = path at h
  cases h with
  | one hc =>
    have hlast := congrArg List.getLast? hpath
    rw [List.getLast?_concat] at hlast
    exact hc (Option.some.inj hlast).symm

/-- A pattern that is not shallow and matches a directory matches all that is below it. -/
theorem accepts_below (h : ¬ Shallow pattern)
    (hdir : accepts (tokensFrom bounded pattern) (s ++ ['/']) = true) (x : Text) :
    accepts (tokensFrom bounded pattern) (s ++ '/' :: x) = true := by
  have hlast : pattern.getLast? ≠ some '/' := fun hlast => h (Or.inl hlast)
  have hmem (s : Text) : '/' ∈ s ++ '/' :: x := List.mem_append_right s List.mem_cons_self
  -- along the pattern: its first token takes the path of the directory whole, or the slash is left
  -- to the rest
  fun_induction tokensFrom bounded pattern generalizing s with
  | case1 rest ih =>
    have hend := last_of_cons (last_of_cons hlast)
    refine accepts_cons_below (fun _ hnil => ?_)
      (fun s hs => ih (not_shallow_behind h) hs (last_of_cons hend)) hdir
    exact accepts_segments (fun z hz => accepts_name hnil (ne_nil_of_last hend)
      (last_of_cons hend) hz) _
  | case2 bounded rest hbounded ih =>
    have hend := last_of_cons (last_of_cons hlast)
    by_cases hnil : accepts (tokensFrom true rest) [] = true
    · refine accepts_anything_slash (fun z hz => ?_) (hmem s)
      exact accepts_name hnil (ne_nil_of_last hend) (last_of_cons hend) hz
    · refine accepts_cons_below (fun _ hempty => ?_) (fun s hs => ?_) hdir
      · cases (accepts_cons_nil.mp hempty).1
      · refine accepts_cons_below (fun _ hempty => absurd hempty hnil) (fun s hs => ?_) hs
        exact ih (not_shallow_behind h) hs (last_of_cons hend)
  | case3 bounded rest hslash ih =>
    by_cases hrest : Shallow rest
    · obtain rfl := eq_of_shallow_behind h hslash hrest
      exact accepts_anything_names (hmem s)
    · refine accepts_cons_below (fun _ hnil => ?_) (fun s hs => ?_) hdir
      · exact accepts_cons_iff.mpr ⟨_, [], .anything _, (List.append_nil _).symm, hnil⟩
      · exact ih hrest hs (last_of_cons (last_of_cons hlast))
  | case4 bounded rest _ hstar ih =>
    have hrest : ¬ Shallow rest := fun hrest => h (hrest.cons fun heq => hstar _ heq.2)
    refine accepts_cons_below (fun htakes _ => ?_) (fun s hs => ih hrest hs (last_of_cons hlast))
      hdir
    cases htakes with
    | name hs => simp at hs
  | case5 bounded rest ih =>
    have hrest := not_shallow_of_cons h (by decide)
    exact accepts_cons_below (fun htakes _ => absurd htakes (not_takes_one s))
      (fun s hs => ih hrest hs (last_of_cons hlast)) hdir
  | case6 bounded c rest _ _ hstar hmark ih =>
    have hrest := not_shallow_of_cons h hstar
    refine accepts_cons_below (fun htakes hnil => ?_) (fun s hs => ih hrest hs (last_of_cons hlast))
      hdir
    obtain ⟨rfl, rfl⟩ := nil_of_takes_literal htakes
    have hname : rest ≠ ['*'] := by
      rintro rfl
      exact h (by decide)
    have htaken := accepts_all hnil (ne_nil_of_last hlast) hname (last_of_cons hlast) x
    exact accepts_cons_iff.mpr ⟨['/'], x, .literal '/', rfl, htaken⟩
  | case7 =>
    rw [accepts, acceptsEnd] at hdir
    simp [List.append_eq_cons_iff] at hdir

end Glob

theorem matchesAnyGlob_below {patterns : List Text}
    (h : ∀ pattern ∈ patterns, ¬ Glob.Shallow pattern) {s : Text}
    (hdir : matchesAnyGlob (s ++ ['/']) patterns = true) (x : Text) :
    matchesAnyGlob (s ++ '/' :: x) patterns = true := by
  obtain ⟨pattern, hpattern, hmatch⟩ := List.any_eq_true.mp hdir
  exact List.any_eq_true.mpr ⟨pattern, hpattern, Glob.accepts_below (h pattern hpattern) hmatch x⟩

example : ¬ Glob.Shallow "**/dist/**".toList ∧ ¬ Glob.Shallow "docs/**/*".toList ∧
    Glob.Shallow "docs/*".toList := by
  decide

end Masthead
