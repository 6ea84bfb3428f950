import Masthead.Header.Excess
import Masthead.Proofs.Layout.Placement

/-! Room for headers. Whether there is room depends on the configuration alone. -/

namespace Masthead
variable [Limits]

structure Config.Roomy (c : Config) : Prop where
  separator : Layout.separatorExcess? c.width c.separatorChar c.commentPrefix = none
  name : c.nameColumn ≤ Limits.memory
  email : c.emailColumn ≤ Limits.memory
  url : c.licenseUrlColumn ≤ Limits.memory
  maintainer : c.maintainerColumn ≤ Limits.memory

instance (c : Config) : Decidable c.Roomy :=
  decidable_of_iff
    (Layout.separatorExcess? c.width c.separatorChar c.commentPrefix = none ∧
      c.nameColumn ≤ Limits.memory ∧
      c.emailColumn ≤ Limits.memory ∧ c.licenseUrlColumn ≤ Limits.memory ∧
      c.maintainerColumn ≤ Limits.memory)
    ⟨fun ⟨h₁, h₂, h₃, h₄, h₅⟩ => ⟨h₁, h₂, h₃, h₄, h₅⟩, fun h => ⟨h.1, h.2, h.3, h.4, h.5⟩⟩

theorem Header.excess?_eq_none {c : Config} (hc : c.Roomy) (people : List Contributor) (first : Int)
    (last : Option Int) : excess? c people first last = none := by
  have hcredit (years name email : Text) : Layout.lineExcess? (creditColumns c years name email) =
      none := by
    refine Layout.lineExcess?_eq_none fun column hmem => ?_
    simp only [creditColumns, List.mem_cons, List.not_mem_nil, or_false] at hmem
    rcases hmem with rfl | rfl | rfl
    · exact Int.natCast_nonneg _
    · exact hc.name
    · exact hc.email
  have hlicense : Layout.lineExcess? (licenseColumns c) = none := by
    refine Layout.lineExcess?_eq_none fun column hmem => ?_
    simp only [licenseColumns, List.mem_cons, List.mem_append] at hmem
    rcases hmem with rfl | hmem | hmem
    · exact Int.natCast_nonneg _
    · split_ifs at hmem
      · cases hmem
      · rw [List.mem_singleton.mp hmem]
        exact hc.url
    · split_ifs at hmem
      · cases hmem
      · rw [List.mem_singleton.mp hmem]
        exact hc.maintainer
  simp only [excess?, hc.separator, List.findSome?_eq_none_iff, columns, List.mem_append,
    List.mem_singleton]
  rintro row (hrow | rfl)
  · cases hpeople : people.take c.maxContributors with
    | nil => simp [hpeople, credited] at hrow
    | cons p others =>
      simp only [hpeople, credited, List.mem_cons, List.mem_map] at hrow
      rcases hrow with rfl | ⟨q, -, rfl⟩ <;> exact hcredit _ _ _
  · exact hlicense

theorem Fixer.excess?_eq_none {f : Fixer} (hc : f.config.Roomy) (past : Past) (content : Text) :
    f.excess? past content = none := by
  unfold excess?
  split <;> exact Header.excess?_eq_none hc _ _ _

end Masthead
