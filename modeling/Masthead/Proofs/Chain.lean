import Mathlib.Data.List.Basic

/-! Computations that may fail. A chain of them comes to a result where each of its steps does. -/

namespace Masthead
variable {ε ε' α β : Type}

section Steps
variable {x : Except ε α}

theorem exists_of_bind_eq_ok {f : α → Except ε β} {b : β} (h : (x >>= f) = .ok b) :
    ∃ a, x = .ok a ∧ f a = .ok b := by
  cases x with
  | error e => cases h
  | ok a => exact ⟨a, rfl, h⟩

theorem exists_of_map_eq_ok {f : α → β} {b : β} (h : x.map f = .ok b) :
    ∃ a, x = .ok a ∧ f a = b := by
  cases x with
  | error e => cases h
  | ok a =>
    cases h
    exact ⟨a, rfl, rfl⟩

theorem eq_ok_of_mapError_eq_ok {f : ε → ε'} {a : α} (h : x.mapError f = .ok a) : x = .ok a := by
  cases x with
  | error e => cases h
  | ok a' =>
    cases h
    rfl

/-! A step whose answer and whose fault are passed on in other words -/

section Renamed
variable {f : ε → ε'} {g : α → β}

theorem exists_map_mapError_eq_ok_iff : (∃ b, (x.mapError f).map g = .ok b) ↔ ∃ a, x = .ok a := by
  cases x with
  | error e => exact iff_of_false (by rintro ⟨b, h⟩; cases h) (by rintro ⟨a, h⟩; cases h)
  | ok a => exact iff_of_true ⟨g a, rfl⟩ ⟨a, rfl⟩

theorem exists_of_map_mapError_eq_error {e : ε'} (h : (x.mapError f).map g = .error e) :
    ∃ cause, x = .error cause ∧ e = f cause := by
  cases x with
  | error cause => exact ⟨cause, rfl, (Except.error.inj h).symm⟩
  | ok a => cases h

end Renamed

end Steps

section MapM
variable {f : α → Except ε β} {a : α} {l : List α} {bs : List β}

theorem exists_of_mapM_cons_eq_ok (h : (a :: l).mapM f = .ok bs) :
    ∃ b rest, f a = .ok b ∧ l.mapM f = .ok rest ∧ bs = b :: rest := by
  rw [List.mapM_cons] at h
  obtain ⟨b, hb, h⟩ := exists_of_bind_eq_ok h
  obtain ⟨rest, hrest, h⟩ := exists_of_bind_eq_ok h
  cases h
  exact ⟨b, rest, hb, hrest, rfl⟩

theorem exists_mapM_eq_ok : (∃ bs, l.mapM f = .ok bs) ↔ ∀ a ∈ l, ∃ b, f a = .ok b := by
  induction l with
  | nil => exact iff_of_true ⟨[], rfl⟩ (by simp)
  | cons a l ih =>
    rw [List.forall_mem_cons, ← ih]
    constructor
    · rintro ⟨bs, h⟩
      obtain ⟨b, rest, hb, hrest, -⟩ := exists_of_mapM_cons_eq_ok h
      exact ⟨⟨b, hb⟩, rest, hrest⟩
    · rintro ⟨⟨b, hb⟩, rest, hrest⟩
      exact ⟨b :: rest, by rw [List.mapM_cons, hb, hrest]; rfl⟩

theorem mem_flatten_of_mapM {f : α → Except ε (List β)} {bss : List (List β)}
    (h : l.mapM f = .ok bss) {b : β} :
    b ∈ bss.flatten ↔ ∃ a ∈ l, ∃ bs, f a = .ok bs ∧ b ∈ bs := by
  induction l generalizing bss with
  | nil =>
    cases h
    simp
  | cons a l ih =>
    obtain ⟨bs, rest, ha, hrest, rfl⟩ := exists_of_mapM_cons_eq_ok h
    simp [ih hrest, ha]

end MapM

end Masthead
