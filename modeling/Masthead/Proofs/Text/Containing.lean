import Masthead.Proofs.Source.Newlines
import Masthead.Proofs.Text.Beginning
import Mathlib.Data.List.Infix

/-! Looking for a part of a text. A part that goes over no line end is found in a source whatever
its newlines are. -/

namespace Masthead

namespace Text

theorem startsWith_iff (s start : Text) : startsWith s start = true ↔ start <+: s := by
  rw [startsWith, Option.isSome_iff_exists]
  constructor
  · rintro ⟨r, hr⟩
    exact ⟨r, (drop?_eq_some hr).symm⟩
  · rintro ⟨r, rfl⟩
    exact ⟨r, drop?_append start r⟩

theorem contains_iff (s part : Text) : contains s part = true ↔ part <:+: s := by
  induction s with
  | nil => rw [contains, List.isEmpty_iff, List.infix_nil]
  | cons c s ih => rw [contains, Bool.or_eq_true, startsWith_iff, ih, List.infix_cons_iff]

end Text

namespace Source
variable {part raw : Text}

theorem prefix_of_normalize (hfeed : '\n' ∉ part) (h : part <+: normalize raw) : part <+: raw := by
  fun_induction normalize raw generalizing part with
  | case1 => exact h
  | case2 rest ih =>
    rcases List.prefix_cons_iff.mp h with rfl | ⟨t, rfl, -⟩
    · exact List.nil_prefix
    · exact absurd List.mem_cons_self hfeed
  | case3 rest _ ih =>
    rcases List.prefix_cons_iff.mp h with rfl | ⟨t, rfl, -⟩
    · exact List.nil_prefix
    · exact absurd List.mem_cons_self hfeed
  | case4 c rest _ _ ih =>
    rcases List.prefix_cons_iff.mp h with rfl | ⟨t, rfl, ht⟩
    · exact List.nil_prefix
    · exact (List.prefix_cons_inj c).mpr (ih (fun hmem => hfeed (List.mem_cons_of_mem _ hmem)) ht)

theorem exists_suffix_of_normalize {t : Text} (h : t <:+ normalize raw) :
    ∃ r, r <:+ raw ∧ normalize r = t := by
  fun_induction normalize raw with
  | case1 => exact ⟨[], List.suffix_rfl, (List.suffix_nil.mp h).symm⟩
  | case2 rest ih =>
    rcases List.suffix_cons_iff.mp h with rfl | h
    · exact ⟨_, List.suffix_rfl, normalize.eq_2 rest⟩
    · exact (ih h).imp fun r hr => ⟨hr.1.trans (List.suffix_append ['\r', '\n'] rest), hr.2⟩
  | case3 rest hpair ih =>
    rcases List.suffix_cons_iff.mp h with rfl | h
    · exact ⟨_, List.suffix_rfl, normalize.eq_3 rest hpair⟩
    · exact (ih h).imp fun r hr => ⟨hr.1.trans (List.suffix_cons '\r' rest), hr.2⟩
  | case4 c rest hpair hreturn ih =>
    rcases List.suffix_cons_iff.mp h with rfl | h
    · exact ⟨_, List.suffix_rfl, normalize.eq_4 c rest hpair hreturn⟩
    · exact (ih h).imp fun r hr => ⟨hr.1.trans (List.suffix_cons c rest), hr.2⟩

theorem infix_of_normalize (hfeed : '\n' ∉ part) (h : part <:+: normalize raw) : part <:+: raw := by
  obtain ⟨t, hpart, ht⟩ := List.infix_iff_prefix_suffix.mp h
  obtain ⟨r, hr, rfl⟩ := exists_suffix_of_normalize ht
  exact (prefix_of_normalize hfeed hpart).isInfix.trans hr.isInfix

end Source

end Masthead
