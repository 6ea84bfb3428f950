import Masthead.Proofs.Workspace.Files

/-! Looking for a file. A path leads to something, to nothing, or is too long to be used. -/

namespace Masthead

section Bind
variable {ε α β : Type} {x : ExceptT ε (StateM Workspace) α}
  {f : α → ExceptT ε (StateM Workspace) β} {w : Workspace}

theorem bind_fst_eq_error {e : ε} :
    ((x >>= f) w).1 = .error e ↔ (x w).1 = .error e ∨ ∃ a, (x w).1 = .ok a ∧
    (f a (x w).2).1 = .error e := by
  rw [bind_apply]
  rcases x w with ⟨_ | a, w'⟩ <;> simp

end Bind

namespace Act
variable {p : Path} {w : Workspace} {e : Fault} {α β : Type}

theorem Looks.bind_fst_eq_error {x : Act α} {f : α → Act β} (hx : Looks x) :
    ((x >>= f) w).1 = .error e ↔ (x w).1 = .error e ∨ ∃ a, (x w).1 = .ok a ∧
    (f a w).1 = .error e := by
  rw [Masthead.bind_fst_eq_error, hx.still]

theorem Looks.bind_fst {x : Act α} (hx : Looks x) (f : α → Act β) (w : Workspace) :
    ((x >>= f) w).1 = (x w).1.bind fun a => (f a w).1 := by
  have hstill := hx.still w
  rw [bind_apply]
  rcases hrun : x w with ⟨e | a, w'⟩
  · rfl
  · rw [hrun] at hstill
    subst hstill
    rfl

theorem Looks.bind_eq_ok {x : Act α} {f : α → Act β} {w' : Workspace} {b : β} (hx : Looks x)
    (h : (x >>= f) w = (.ok b, w')) : ∃ a, (x w).1 = .ok a ∧ f a w = (.ok b, w') := by
  obtain ⟨a, w₁, hrun, hrest⟩ := Masthead.bind_eq_ok h
  obtain rfl : w₁ = w := by rw [← hx.still w, hrun]
  exact ⟨a, by rw [hrun], hrest⟩

theorem pure_fst_ne_error {a : α} : ((pure a : Act α) w).1 ≠ .error e := fun h => by cases h

theorem throw_fst_eq_error {e' : Fault} : ((throw e' : Act α) w).1 = .error e ↔ e = e' :=
  ⟨fun h => (Except.error.inj h).symm, fun h => congrArg Except.error h.symm⟩

theorem ofExcept_fst_eq_error {ε : Type} {f : ε → Fault} {r : Except ε α} :
    (ofExcept f r w).1 = .error e ↔ ∃ cause, r = .error cause ∧ e = f cause := by
  cases r with
  | ok a => exact iff_of_false pure_fst_ne_error (by simp)
  | error cause => exact throw_fst_eq_error.trans (by simp)

theorem ofExcept_fst_eq_ok {ε : Type} {f : ε → Fault} {r : Except ε α} {a : α} :
    (ofExcept f r w).1 = .ok a ↔ r = .ok a := by
  cases r with
  | ok b => exact pure_fst_eq_ok.trans (by simp [eq_comm])
  | error cause => exact iff_of_false nofun nofun

def IsTooLong (p : Path) (w : Workspace) : Prop :=
  p.hasNull = false ∧ (pathLimit < Tree.byteCount p.text ∨ w.tree.find (start p w) p.parts =
    .error .nameTooLong)

def seen (p : Path) (w : Workspace) : Except Fault (Option (Tree.Place × Tree)) :=
  if p.hasNull then .ok none
  else if pathLimit < Tree.byteCount p.text then .error (.file ⟨.nameTooLong, p.text⟩)
  else match w.tree.find (start p w) p.parts with
    | .ok (place, t) => .ok (t.map fun t => (place, t))
    | .error .nameTooLong => .error (.file ⟨.nameTooLong, p.text⟩)
    | .error _ => .ok none

theorem lookUp_eq (p : Path) (w : Workspace) : lookUp p w = (seen p w, w) := by
  rw [lookUp, seen]
  split_ifs with hnull hlong
  · rfl
  · rw [bind_apply, find_eq, if_neg hnull, if_pos hlong]
    rfl
  · rw [bind_apply, find_eq, if_neg hnull, if_neg hlong]
    rcases w.tree.find (start p w) p.parts with cause | ⟨place, t⟩
    · cases cause <;> rfl
    · rfl

theorem seen_eq_error (h : seen p w = .error e) : e = .file ⟨.nameTooLong, p.text⟩ := by
  rw [seen] at h
  split_ifs at h
  · exact (Except.error.inj h).symm
  · rcases hfind : w.tree.find (start p w) p.parts with cause | ⟨place, t⟩
    · rw [hfind] at h
      cases cause <;> first | exact (Except.error.inj h).symm | cases h
    · rw [hfind] at h
      cases h

theorem isThere_eq (p : Path) (w : Workspace) : isThere p w = ((seen p w).map (·.isSome), w) := by
  rw [isThere, entry?, bind_apply, bind_apply, lookUp_eq]
  rcases seen p w with cause | _ | found <;> rfl

theorem isFile_fst (p : Path) (w : Workspace) :
    (isFile p w).1 = (seen p w).map fun found => (found.map (·.2)).any (·.isFile) := by
  rw [isFile, entry?, bind_apply, bind_apply, lookUp_eq]
  cases seen p w <;> rfl

theorem isFile_fst_eq_error :
    (isFile p w).1 = .error e ↔ IsTooLong p w ∧ e = .file ⟨.nameTooLong, p.text⟩ := by
  rw [isFile_fst, seen, IsTooLong]
  by_cases hnull : p.hasNull = true
  · simp [hnull, Except.map]
  by_cases hlong : pathLimit < Tree.byteCount p.text
  · simp [hnull, hlong, Except.map, eq_comm]
  rcases w.tree.find (start p w) p.parts with cause | ⟨place, t⟩
  · cases cause <;> simp [hnull, hlong, Except.map, eq_comm]
  · simp [hnull, hlong, Except.map]

theorem isFile_fst_eq_true :
    (isFile p w).1 = .ok true ↔ ∃ place bytes b, LeadsTo p w place bytes b := by
  constructor
  · intro h
    rw [isFile_fst, seen] at h
    split_ifs at h with hnull hlong
    · cases h
    · cases h
    · rcases hfind : w.tree.find (start p w) p.parts with cause | ⟨place, t⟩
      · rw [hfind] at h
        cases cause <;> cases h
      · rw [hfind] at h
        rcases t with _ | bytes | es | target
        · cases h
        · exact ⟨place, _, _, by simpa using hnull, hlong, hfind⟩
        · cases h
        · cases h
  · rintro ⟨place, bytes, b, h⟩
    rw [isFile_fst, seen, if_neg (by simp [h.valid]), if_neg h.short, h.found]
    rfl

theorem LeadsTo.readRaw {place : Tree.Place} {bytes : List UInt8} {b : Bool}
    (h : LeadsTo p w place bytes b) :
    Act.readRaw p w = ((Utf8.decode bytes).mapError Fault.encoding, w) := by
  rw [Act.readRaw, bind_of_ok _ h.readBytes]
  cases Utf8.decode bytes <;> rfl

theorem LeadsTo.readText {place : Tree.Place} {bytes : List UInt8} {b : Bool}
    (h : LeadsTo p w place bytes b) :
    Act.readText p w = (((Utf8.decode bytes).mapError Fault.encoding).map Source.normalize, w) := by
  rw [Act.readText, bind_apply, h.readRaw]
  cases Utf8.decode bytes <;> rfl

end Act

end Masthead
