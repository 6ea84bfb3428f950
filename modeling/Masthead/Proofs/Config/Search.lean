import Masthead.Config.Project
import Masthead.Proofs.Config.Precedence
import Masthead.Proofs.Workspace.Looking

/-! Searching through files. Whatever is looked for, the first file that says something ends the
search, and a file that cannot be used may end it before. -/

namespace Masthead

namespace Config
open Act (Looks Still LeadsTo)

/-! Going through a list of files -/

section Search
variable {α β : Type} {x : α → Act (Option β)} {l l' : List α} {w : Workspace}

def search (x : α → Act (Option β)) : List α → Act (Option β)
  | [] => return none
  | a :: l => do
    match ← x a with
    | some b => return some b
    | none => search x l

theorem search_append (x : α → Act (Option β)) (l l' : List α) :
    search x (l ++ l') = search x l >>= fun found =>
      match found with
      | some b => pure (some b)
      | none => search x l' := by
  induction l with
  | nil => rfl
  | cons a l ih =>
    rw [List.cons_append, search, search, bind_assoc]
    refine bind_congr fun found => ?_
    cases found with
    | some b => rfl
    | none => exact ih

section
variable [Limits] [Toml.Library]

theorem firstIn_eq (directory : Path) (names : List Text) :
    firstIn directory names = search (fun p => read p false) (names.map directory.child) := by
  induction names with
  | nil => rfl
  | cons name names ih =>
    rw [firstIn, ih, List.map_cons, search]
    refine bind_congr fun found => ?_
    cases found <;> rfl

theorem firstAmong_eq (directories : List Path) :
    firstAmong directories =
      search (fun p => read p false) (directories.flatMap fun directory =>
        sourceNames.map directory.child) := by
  induction directories with
  | nil => rfl
  | cons directory above ih =>
    rw [firstAmong, ih, firstIn_eq, List.flatMap_cons, search_append]
    refine bind_congr fun found => ?_
    cases found <;> rfl

theorem licenseAmong_eq (paths : List Path) : licenseAmong paths = search licenseIn paths := by
  induction paths with
  | nil => rfl
  | cons p paths ih =>
    rw [licenseAmong, ih, search]
    refine bind_congr fun license => ?_
    cases license <;> rfl

end

/-- A search fails where it comes to something that fails, past all that is no answer. -/
theorem search_fst_eq_error (hx : ∀ a, Still (x a)) {e : Fault} :
    (search x l w).1 = .error e ↔
      ∃ before a after, l = before ++ a :: after ∧ (∀ b ∈ before, (x b w).1 = .ok none) ∧
      (x a w).1 = .error e := by
  induction l with
  | nil =>
    refine iff_of_false Act.pure_fst_ne_error ?_
    rintro ⟨before, a, after, heq, -⟩
    simp at heq
  | cons a l ih =>
    rw [search, bind_fst_eq_error, hx]
    constructor
    · rintro (hfail | ⟨_ | b, ha, hrest⟩)
      · exact ⟨[], a, l, rfl, by simp, hfail⟩
      · obtain ⟨before, c, after, rfl, hbefore, hc⟩ := ih.mp hrest
        exact ⟨a :: before, c, after, rfl, List.forall_mem_cons.mpr ⟨ha, hbefore⟩, hc⟩
      · cases hrest
    · rintro ⟨_ | ⟨b, before⟩, c, after, heq, hbefore, hc⟩
      · obtain ⟨rfl, rfl⟩ := List.cons.inj heq
        exact Or.inl hc
      · obtain ⟨rfl, rfl⟩ := List.cons.inj heq
        rw [List.forall_mem_cons] at hbefore
        exact Or.inr ⟨none, hbefore.1, ih.mpr ⟨before, c, after, rfl, hbefore.2, hc⟩⟩

end Search

end Config
end Masthead
