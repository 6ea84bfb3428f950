import Masthead.Proofs.Fix.Keeping
import Masthead.Proofs.Fix.Renewal

/-! Whether the report of an update is true. It is made of the header that was found and of the
user, before the header is cut to the contributors that the configuration allows; it names a user
who is cut off. -/

namespace Masthead

namespace Fix

def Outcome.report (o : Outcome) : List Text := o.changes.map Change.message

/-! The first letter of a message tells what kind of change it is about. -/

theorem head?_yearMessage (range : Text) :
    ("Update year to ".toList ++ range).head? = some 'U' := by
  have hletter : "Update year to ".toList.head? = some 'U' := by decide
  rw [List.head?_append, hletter, Option.some_or]

theorem head?_creditMessage (name : Text) :
    ("Add contributor: ".toList ++ name).head? = some 'A' := by
  have hletter : "Add contributor: ".toList.head? = some 'A' := by decide
  rw [List.head?_append, hletter, Option.some_or]

theorem Change.head?_message (x : Change) :
    (x = .create ∧ x.message.head? = some 'C') ∨
    (∃ first last, x = .extendYears first last ∧ x.message.head? = some 'U') ∨
    (∃ p, x = .credit p ∧ x.message.head? = some 'A') ∨
    (x = .layOut ∧ x.message.head? = some 'R') := by
  cases x with
  | create => exact Or.inl ⟨rfl, by decide⟩
  | extendYears first last => exact Or.inr (Or.inl ⟨first, last, rfl, head?_yearMessage _⟩)
  | credit p => exact Or.inr (Or.inr (Or.inl ⟨p, rfl, head?_creditMessage _⟩))
  | layOut => exact Or.inr (Or.inr (Or.inr ⟨rfl, by decide⟩))

theorem Change.message_eq_credit {x : Change} {name : Text} :
    x.message = "Add contributor: ".toList ++ name ↔ ∃ p, x = .credit p ∧ p.name = name := by
  constructor
  · intro h
    have hhead := head?_creditMessage name
    rw [← h] at hhead
    rcases x.head?_message with ⟨-, hx⟩ | ⟨_, _, -, hx⟩ | ⟨p, rfl, -⟩ | ⟨-, hx⟩
    · simp [hhead] at hx
    · simp [hhead] at hx
    · exact ⟨p, rfl, List.append_cancel_left h⟩
    · simp [hhead] at hx
  · rintro ⟨p, rfl, rfl⟩
    rfl

theorem Change.message_eq_years {x : Change} {range : Text} :
    x.message = "Update year to ".toList ++ range ↔
      ∃ first last, x = .extendYears first last ∧ Header.yearText first (some last) = range := by
  constructor
  · intro h
    have hhead := head?_yearMessage range
    rw [← h] at hhead
    rcases x.head?_message with ⟨-, hx⟩ | ⟨first, last, rfl, -⟩ | ⟨_, -, hx⟩ | ⟨-, hx⟩
    · simp [hhead] at hx
    · exact ⟨first, last, rfl, List.append_cancel_left h⟩
    · simp [hhead] at hx
    · simp [hhead] at hx
  · rintro ⟨first, last, rfl, rfl⟩
    rfl

/-- What is reported of an update is what the new header has and the old one has not. -/
structure Outcome.Truthful (o : Outcome) (user : Option Contributor) (old new : Header) : Prop where
  credit : ∀ name : Text, "Add contributor: ".toList ++ name ∈ o.report ↔
    ∃ p ∈ user, p.name = name ∧ credits new.contributors p.email = true ∧
      credits old.contributors p.email = false
  years : ∀ range : Text, "Update year to ".toList ++ range ∈ o.report ↔
    range = Header.yearText new.yearStart (some new.yearEnd) ∧ new.yearEnd ≠ old.yearEnd
  layout : new.yearEnd = old.yearEnd →
    (∀ p ∈ user, credits new.contributors p.email = true →
      credits old.contributors p.email = true) →
      o.details = "Regenerate header layout".toList

end Fix

namespace Fixer
open Masthead.Fix (Change Outcome)
open Header (parse? generate withUser yearText)
open Source (splitPreamble)
variable {f : Fixer} {past : Past} {content : Text} {old new : Header} {o : Outcome}

theorem mem_changes {x : Change} :
    x ∈ f.changes old ↔
      (old.yearEnd < f.year ∧ x = .extendYears old.yearStart f.year) ∨
      (∃ p ∈ f.user, credits old.contributors p.email = false ∧ x = .credit p) ∨
      (¬ old.yearEnd < f.year ∧ (∀ p ∈ f.user, credits old.contributors p.email = true) ∧
        x = .layOut) := by
  rw [changes]
  by_cases hyear : old.yearEnd < f.year
  · cases huser : f.user with
    | none => simp [hyear]
    | some p => cases hp : credits old.contributors p.email <;> simp [hyear, hp]
  · cases huser : f.user with
    | none => simp [hyear]
    | some p => cases hp : credits old.contributors p.email <;> simp [hyear, hp]

theorem credit_mem_report (ho : o.changes = f.changes old) {name : Text} :
    "Add contributor: ".toList ++ name ∈ o.report ↔
      ∃ p ∈ f.user, credits old.contributors p.email = false ∧ p.name = name := by
  simp only [Outcome.report, ho, List.mem_map, Change.message_eq_credit, mem_changes]
  constructor
  · rintro ⟨x, ⟨-, rfl⟩ | ⟨p, hp, hnew, rfl⟩ | ⟨-, -, rfl⟩, q, hx, rfl⟩
    · cases hx
    · cases hx
      exact ⟨p, hp, hnew, rfl⟩
    · cases hx
  · rintro ⟨p, hp, hnew, rfl⟩
    exact ⟨.credit p, Or.inr (Or.inl ⟨p, hp, hnew, rfl⟩), p, rfl, rfl⟩

theorem years_mem_report (ho : o.changes = f.changes old) {range : Text} :
    "Update year to ".toList ++ range ∈ o.report ↔
      old.yearEnd < f.year ∧ range = yearText old.yearStart (some f.year) := by
  simp only [Outcome.report, ho, List.mem_map, Change.message_eq_years, mem_changes]
  constructor
  · rintro ⟨x, ⟨hyear, rfl⟩ | ⟨p, -, -, rfl⟩ | ⟨-, -, rfl⟩, first, last, hx, rfl⟩
    · cases hx
      exact ⟨hyear, rfl⟩
    · cases hx
    · cases hx
  · rintro ⟨hyear, rfl⟩
    exact ⟨.extendYears old.yearStart f.year, Or.inl ⟨hyear, rfl⟩, old.yearStart, f.year, rfl, rfl⟩

theorem changes_of_nothing_new (hyear : ¬ old.yearEnd < f.year)
    (huser : ∀ p ∈ f.user, credits old.contributors p.email = true) :
    f.changes old = [.layOut] := by
  rw [changes, if_neg hyear]
  cases hu : f.user with
  | none => rfl
  | some p => simp [huser p hu]

theorem credit_true_iff (ho : o.changes = f.changes old) :
    (∀ name : Text, "Add contributor: ".toList ++ name ∈ o.report ↔
        ∃ p ∈ f.user, p.name = name ∧ credits new.contributors p.email = true ∧
          credits old.contributors p.email = false) ↔
      ∀ p ∈ f.user, credits old.contributors p.email = true ∨
        credits new.contributors p.email = true := by
  simp only [credit_mem_report ho]
  constructor
  · intro h p hp
    cases hnot : credits old.contributors p.email with
    | true => exact Or.inl rfl
    | false =>
      obtain ⟨q, hq, -, hcredited, -⟩ := (h p.name).mp ⟨p, hp, hnot, rfl⟩
      obtain rfl : p = q := Option.mem_unique hp hq
      exact Or.inr hcredited
  · intro h name
    constructor
    · rintro ⟨p, hp, hnot, hname⟩
      exact ⟨p, hp, hname, (h p hp).resolve_left (by simp [hnot]), hnot⟩
    · rintro ⟨p, hp, hname, -, hnot⟩
      exact ⟨p, hp, hnot, hname⟩

theorem years_true_iff (ho : o.changes = f.changes old) (hold : 0 ≤ old.yearStart ∧ 0 ≤ old.yearEnd)
    (hnew : 0 ≤ new.yearStart ∧ 0 ≤ new.yearEnd) :
    (∀ range : Text, "Update year to ".toList ++ range ∈ o.report ↔
        range = yearText new.yearStart (some new.yearEnd) ∧ new.yearEnd ≠ old.yearEnd) ↔
      new.yearEnd = max old.yearEnd f.year ∧
        (old.yearEnd < f.year → new.yearStart = old.yearStart) := by
  simp only [years_mem_report ho]
  by_cases hyear : old.yearEnd < f.year
  · constructor
    · intro h
      obtain ⟨hrange, -⟩ := (h _).mp ⟨hyear, rfl⟩
      have hyears := Header.yearText_injective hold.1 (by omega) hnew.1 hnew.2 hrange
      exact ⟨by omega, fun _ => hyears.1.symm⟩
    · rintro ⟨hend, hstart⟩ range
      have hlast : new.yearEnd = f.year := by omega
      rw [hstart hyear, hlast, and_comm, and_congr_right_iff]
      exact fun _ => iff_of_true hyear (by omega)
  · constructor
    · intro h
      have hsame : new.yearEnd = old.yearEnd := by
        by_contra hother
        exact hyear ((h _).mpr ⟨rfl, hother⟩).1
      exact ⟨by omega, fun h => absurd h hyear⟩
    · rintro ⟨hend, -⟩ range
      exact iff_of_false (fun h => hyear h.1) fun h => h.2 (by omega)

theorem truthful_iff (ho : o.changes = f.changes old) (hold : 0 ≤ old.yearStart ∧ 0 ≤ old.yearEnd)
    (hnew : 0 ≤ new.yearStart ∧ 0 ≤ new.yearEnd) :
    o.Truthful f.user old new ↔
      (∀ p ∈ f.user, credits old.contributors p.email = true ∨
        credits new.contributors p.email = true) ∧
      new.yearEnd = max old.yearEnd f.year ∧
        (old.yearEnd < f.year → new.yearStart = old.yearStart) := by
  constructor
  · intro h
    exact ⟨(credit_true_iff ho).mp h.credit, (years_true_iff ho hold hnew).mp h.years⟩
  · rintro ⟨hcredited, hyears⟩
    refine ⟨(credit_true_iff ho).mpr hcredited, (years_true_iff ho hold hnew).mpr hyears,
      fun hsame huser => ?_⟩
    have hyear : ¬ old.yearEnd < f.year := by omega
    have hnothing := changes_of_nothing_new hyear fun p hp => (hcredited p hp).elim id (huser p hp)
    rw [Outcome.details, ho, hnothing, List.map_singleton, Text.join, List.intercalate_singleton]
    rfl

theorem current?_of_updated (h : (f.fix past content).action = .updated) :
    ∃ old, f.current? content = some old ∧ (f.fix past content).changes = f.changes old := by
  rw [fix] at h ⊢
  cases hcurrent : f.current? content with
  | none => simp [hcurrent] at h
  | some old =>
    rw [hcurrent] at h
    dsimp only at h ⊢
    split_ifs at h ⊢
    exact ⟨old, rfl, rfl⟩

theorem exists_parse?_updated (hc : f.config.Ruled)
    (hparse : parse? f.config.dialect (splitPreamble content).2 = some old)
    (hyear : old.yearStart ≠ 0)
    (hread : Header.ReadBack f.config old.yearStart (some (max old.yearEnd f.year))
      ((withUser old.contributors f.user).take f.config.maxContributors)) (past : Past) :
    ∃ new bare, parse? f.config.dialect (splitPreamble (f.fix past content).text).2 = some new ∧
      parse? f.config.dialect (generate f.config [] 0 none) = some bare ∧
      (0 < f.config.maxContributors →
        new.contributors = (withUser old.contributors f.user).take f.config.maxContributors ++
        bare.contributors ∧
          new.yearStart = old.yearStart ∧ new.yearEnd = max old.yearEnd f.year) ∧
      (f.config.maxContributors = 0 → new = bare) := by
  have hsign := (Header.parse?_sign hparse).1
  have hsep := Header.line_separatorLine hc hsign
  have hcurrent : f.current? content = some old := current?_eq_some.mpr ⟨hparse, hyear⟩
  obtain ⟨new, hnew, hheader⟩ := exists_parse?_fix hc hparse past
  obtain ⟨bare, hbare⟩ := Header.exists_parse?_generate hc hsign [] 0 none
  rw [header_of_current? hcurrent] at hheader
  refine ⟨new, bare, hnew, hbare, fun hlimit => ?_, fun hzero => ?_⟩
  · have hold := Header.parse?_years_nonneg hparse
    have hsomebody := Header.parse?_contributors_ne_nil hparse hyear
    have hne : (withUser old.contributors f.user).take f.config.maxContributors ≠ [] := by
      rw [Header.withUser_eq, ne_eq, List.take_eq_nil_iff, List.append_eq_nil_iff]
      rintro (hnone | hnil)
      · omega
      · exact hsomebody hnil.1
    obtain ⟨hpeople, hstart, hend⟩ :=
      Header.parse?_generate_credits hsep hsign hread (by omega) hne hbare hheader
    rw [Option.getD_some] at hend
    exact ⟨hpeople, by omega, by omega⟩
  · -- everybody is cut off, and the years with them
    rw [Header.update, Header.generate_of_take_eq_nil (by rw [hzero, List.take_zero]),
      hbare] at hheader
    exact (Option.some.inj hheader).symm

theorem credits_cut_iff {bare : List Contributor} {p : Contributor} (n : Nat) (hp : p ∈ f.user)
    (hnot : credits old.contributors p.email = false) :
    credits ((withUser old.contributors f.user).take n ++ bare) p.email = true ↔
      old.contributors.length < n ∨ credits bare p.email = true := by
  have hlast : withUser old.contributors f.user = old.contributors ++ [p] := by
    rw [Option.mem_def.mp hp, withUser, hnot]
    rfl
  rw [credits_append, hlast, credits_take_concat n hnot]

/-- An update is reported truly exactly if there is room for the user and for years in the new
header, or else the text of the license happens to state them. -/
theorem details_truthful_iff (hc : f.config.Ruled)
    (hparse : parse? f.config.dialect (splitPreamble content).2 = some old)
    (hread : Header.ReadBack f.config old.yearStart (some (max old.yearEnd f.year))
      ((withUser old.contributors f.user).take f.config.maxContributors))
    (hupdated : (f.fix past content).action = .updated) :
    ∃ new bare, parse? f.config.dialect (splitPreamble (f.fix past content).text).2 = some new ∧
      parse? f.config.dialect (generate f.config [] 0 none) = some bare ∧
      ((f.fix past content).Truthful f.user old new ↔
        (∀ p ∈ f.user, credits old.contributors p.email = true ∨
          old.contributors.length < f.config.maxContributors ∨
          credits bare.contributors p.email = true) ∧
        (0 < f.config.maxContributors ∨
          bare.yearEnd = max old.yearEnd f.year ∧
          (old.yearEnd < f.year → bare.yearStart = old.yearStart))) ∧
      (f.config.Writable → bare.contributors = [] ∧ bare.yearStart = 0) := by
  obtain ⟨old', hcurrent, hchanges⟩ := current?_of_updated hupdated
  obtain ⟨hparse', hyear⟩ := current?_eq_some.mp hcurrent
  obtain rfl : old = old' := Option.some.inj (hparse.symm.trans hparse')
  obtain ⟨new, bare, hnew, hbare, hroom, hnobody⟩ :=
    exists_parse?_updated hc hparse hyear hread past
  refine ⟨new, bare, hnew, hbare, ?_, fun hwritable => Header.parse?_generate_nobody
    hwritable hbare⟩
  rw [truthful_iff hchanges (Header.parse?_years_nonneg hparse) (Header.parse?_years_nonneg hnew)]
  by_cases hlimit : 0 < f.config.maxContributors
  · obtain ⟨hpeople, hstart, hend⟩ := hroom hlimit
    rw [and_iff_left ⟨hend, fun _ => hstart⟩, and_iff_left (Or.inl hlimit), hpeople]
    refine forall₂_congr fun p hp => ?_
    cases hnot : credits old.contributors p.email with
    | true => simp
    | false => rw [credits_cut_iff _ hp hnot]
  · have hzero : f.config.maxContributors = 0 := by omega
    simp [hnobody hzero, hzero]

section Examples

def limited (limit : Int) (user : Contributor) : Fixer :=
  { config := .standard "MIT".toList (some limit), user := some user, year := 2025 }

theorem parse?_credited_john :
    ∃ old, parse? (limited 2 .jane).config.dialect (splitPreamble (credited .john)).2 = some old ∧
      old.yearStart = 2020 ∧ old.yearEnd = 2020 ∧ old.contributors = [.john] := by
  have hread : (parse? (limited 2 .jane).config.dialect (splitPreamble (credited .john)).2).map
      (fun h => (h.yearStart, h.yearEnd, h.contributors)) = some (2020, 2020, [.john]) := by decide
  obtain ⟨old, hparse, hold⟩ := Option.map_eq_some_iff.mp hread
  simp only [Prod.mk.injEq] at hold
  exact ⟨old, hparse, hold⟩

theorem readBack_limited {limit : Int} (hlimit : limit = 1 ∨ limit = 2) {old : Header}
    (hstart : old.yearStart = 2020) (hend : old.yearEnd = 2020)
    (hpeople : old.contributors = [.john]) :
    (limited limit .jane).config.Readable ∧
      Header.ReadBack (limited limit .jane).config old.yearStart
      (some (max old.yearEnd (limited limit .jane).year))
        ((withUser old.contributors (limited limit .jane).user).take
          (limited limit .jane).config.maxContributors) := by
  have hreadable : (limited limit .jane).config.Readable := by
    refine Config.standard_readable (by decide) ?_
    rcases hlimit with rfl | rfl <;> decide
  refine ⟨hreadable, Header.readBack_of_fits hreadable (fun p hp => ?_) (by rw [hstart]; decide) ?_⟩
  · have hmem := List.mem_of_mem_take hp
    rw [hpeople] at hmem
    have hboth : ∀ q ∈ withUser [.john] (some .jane), q.Fits (limited limit .jane).config := by
      rcases hlimit with rfl | rfl <;> decide
    exact hboth p hmem
  · rw [hend]
    exact (by decide : ∀ y ∈ some (max 2020 (2025 : Int)), Text.IsYear y)

theorem details_truthful_limited :
    ∃ old new, parse? (limited 2 .jane).config.dialect (splitPreamble (credited .john)).2 =
    some old ∧
      parse? (limited 2 .jane).config.dialect
      (splitPreamble ((limited 2 .jane).fix {} (credited .john)).text).2 =
        some new ∧
      ((limited 2 .jane).fix {} (credited .john)).Truthful (some .jane) old new := by
  obtain ⟨old, hparse, hstart, hend, hpeople⟩ := parse?_credited_john
  obtain ⟨hreadable, hread⟩ := readBack_limited (Or.inr rfl) hstart hend hpeople
  have hupdated : ((limited 2 .jane).fix {} (credited .john)).action = .updated := by decide +kernel
  obtain ⟨new, _, hnew, -, hiff, -⟩ := details_truthful_iff hreadable.ruled hparse hread hupdated
  have hroom : old.contributors.length < (limited 2 .jane).config.maxContributors := by
    rw [hpeople]
    decide
  exact ⟨old, new, hparse, hnew, hiff.mpr ⟨fun p _ => Or.inr (Or.inl hroom), Or.inl (by decide)⟩⟩

/-- With room for one only, the user is cut off and reported nevertheless. -/
theorem details_credit_nobody :
    ((limited 1 .jane).fix {} (credited .john)).action = .updated ∧
      ((limited 1 .jane).fix {} (credited .john)).details =
        "Update year to 2020-2025; Add contributor: Jane Doe".toList ∧
      ∃ old new, parse? (limited 1 .jane).config.dialect (splitPreamble (credited .john)).2 =
        some old ∧
        parse? (limited 1 .jane).config.dialect
        (splitPreamble ((limited 1 .jane).fix {} (credited .john)).text).2 =
          some new ∧
        new.yearStart = 2020 ∧ new.yearEnd = 2025 ∧ new.contributors = [.john] ∧
        ¬ ((limited 1 .jane).fix {} (credited .john)).Truthful (some .jane) old new := by
  refine ⟨by decide +kernel, by decide +kernel, ?_⟩
  obtain ⟨old, hparse, hstart, hend, hpeople⟩ := parse?_credited_john
  obtain ⟨hreadable, hread⟩ := readBack_limited (Or.inl rfl) hstart hend hpeople
  obtain ⟨new, bare, hnew, hbare, hroom, -⟩ :=
    exists_parse?_updated hreadable.ruled hparse (by rw [hstart]; decide) hread {}
  obtain ⟨hnewPeople, hnewStart, hnewEnd⟩ := hroom (by decide)
  rw [(Header.parse?_generate_nobody hreadable.toWritable hbare).1, List.append_nil, hpeople]
    at hnewPeople
  have hjohn : new.contributors = [.john] := hnewPeople.trans (by decide)
  refine ⟨old, new, hparse, hnew, hnewStart.trans hstart,
    by rw [hnewEnd, hend]; rfl, hjohn, fun htrue => ?_⟩
  have hreported : "Add contributor: ".toList ++ Contributor.jane.name ∈
      ((limited 1 .jane).fix {} (credited .john)).report := by decide +kernel
  obtain ⟨p, hp, -, hcredited, -⟩ := (htrue.credit _).mp hreported
  obtain rfl := Option.some.inj hp
  rw [hjohn] at hcredited
  exact absurd hcredited (by decide)

end Examples

end Fixer
end Masthead
