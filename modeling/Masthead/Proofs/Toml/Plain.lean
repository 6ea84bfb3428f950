import Masthead.Backend.Toml.Library
import Masthead.Proofs.Toml

/-! A library that keeps no more of a document than its data. It is a dictionary. -/

namespace Masthead

namespace Table
variable {t : Table} {key : Text}

theorem get?_append (t u : Table) (name : Text) :
    get? (t ++ u) name = (t.get? name).or (u.get? name) := by
  rw [get?, get?, get?, List.find?_append, Option.map_or]

theorem get?_replace (t : Table) (key name : Text) (v : Value) :
    get? (t.map fun e => if e.1 = key then (key, v) else e) name =
      if key = name then (t.get? key).map fun _ => v else t.get? name := by
  induction t with
  | nil => simp
  | cons e t ih =>
    obtain ⟨k, u⟩ := e
    rw [List.map_cons, get?_cons, get?_cons]
    by_cases hk : k = key
    · subst hk
      rw [if_pos rfl, if_pos rfl, get?_cons, ih]
      split_ifs <;> rfl
    · rw [if_neg hk, if_neg hk, get?_cons, ih]
      split_ifs with hname hkey
      · exact absurd (hname.trans hkey.symm) hk
      · rfl
      · rfl
      · rfl

theorem has_eq (t : Table) (key : Text) : t.has key = (t.get? key).isSome := by
  rw [has, get?, Option.isSome_map, List.isSome_find?]

theorem get?_insert (t : Table) (key name : Text) (v : Value) :
    (t.insert key v).get? name = if key = name then some v else t.get? name := by
  rw [insert, has_eq]
  split_ifs with hhas hname hname
  · obtain ⟨u, hu⟩ := Option.isSome_iff_exists.mp hhas
    rw [get?_replace, if_pos hname, hu, Option.map_some]
  · rw [get?_replace, if_neg hname]
  · rw [Bool.not_eq_true, Option.isSome_eq_false_iff, Option.isNone_iff_eq_none] at hhas
    rw [get?_append, ← hname, hhas, Option.none_or, get?_cons, if_pos rfl]
  · rw [get?_append, get?_cons, if_neg hname, get?_nil, Option.or_none]

end Table

namespace Toml.Plain

def putIn (t : Table) (key : Text) (v : Value) : List Text → Except Foreign Table
  | [] => .ok (t.insert key v)
  | name :: way =>
    match t.get? name with
    | some (.table inner) => (putIn inner key v way).map fun inner => t.insert name (.table inner)
    | _ => .error ⟨"no table".toList, name⟩

def put (t : Table) (way : List Text) (key : Text) (entry : Entry) : Except Foreign Table :=
  match entry with
  | .frame => putIn t key (.table []) way
  | entry =>
    match entry.value? with
    | some v => putIn t key v way
    | none => .error ⟨"no text".toList, key⟩

def shapeOf : Value → Shape
  | .table _ => .table
  | _ => .other

def shape? (t : Table) (path : List Text) : Option Shape :=
  ((t.follow path.dropLast).get? (path.getLast?.getD [])).map shapeOf

def parse (s : Text) : Except Fault Table :=
  (Backend.Toml.Edited.parse s).bind fun d => (Backend.Toml.Edited.data d).mapError .foreign

def text (t : Table) : Except Foreign Points :=
  ((Backend.Toml.newSection t).mapError Backend.Toml.foreign).map fun new =>
    Points.ofText (Backend.Toml.Document.text new.body)

scoped instance library : Library where
  Document := Table
  parse := parse
  data := .ok
  shape? t path := .ok (shape? t path)
  put := put
  text := text

section
variable {t t' : Table} {way : List Text} {key : Text} {v : Value} {entry : Entry}

theorem putIn_eq_ok (h : putIn t key v way = .ok t') :
    (t'.follow way).get? key = some v ∧
      ∀ name, (way ++ [key]).head? ≠ some name → t'.get? name = t.get? name := by
  induction way generalizing t t' with
  | nil =>
    cases h
    refine ⟨by rw [Table.follow, Table.get?_insert, if_pos rfl], fun name hname => ?_⟩
    rw [Table.get?_insert, if_neg fun heq => hname (congrArg some heq)]
  | cons name way ih =>
    rw [putIn] at h
    split at h
    · obtain ⟨inner, hinner, rfl⟩ := exists_of_map_eq_ok h
      refine ⟨?_, fun other hother => ?_⟩
      · rw [Table.follow, Table.get?_insert, if_pos rfl]
        exact (ih hinner).1
      · rw [Table.get?_insert, if_neg fun heq => hother (congrArg some heq)]
    · cases h

theorem exists_putIn (h : put t way key entry = .ok t') :
    ∃ v, putIn t key v way = .ok t' ∧ ∀ u, entry.value? = some u → u = v := by
  have hvalue {entry : Entry} (h : (match entry.value? with
      | some v => putIn t key v way
      | none => .error ⟨"no text".toList, key⟩) = .ok t') :
      ∃ v, putIn t key v way = .ok t' ∧ ∀ u, entry.value? = some u → u = v := by
    cases hv : entry.value? with
    | none =>
      rw [hv] at h
      cases h
    | some v =>
      rw [hv] at h
      exact ⟨v, h, fun u hu => (Option.some.inj hu).symm⟩
  cases entry with
  | frame => exact ⟨_, h, nofun⟩
  | table values => exact hvalue h
  | plain content => exact hvalue h

theorem isDictionary : IsDictionary where
  absent ht hshape := by
    cases ht
    exact Option.map_eq_none_iff.mp (Except.ok.inj hshape)
  top _ _ _ := ⟨_, rfl⟩
  entry hput ht' hv := by
    cases ht'
    obtain ⟨v, hputIn, hvalue⟩ := exists_putIn hput
    rw [hvalue _ hv]
    exact (putIn_eq_ok hputIn).1
  others ht hput ht' hname := by
    cases ht
    cases ht'
    obtain ⟨v, hputIn, -⟩ := exists_putIn hput
    exact (putIn_eq_ok hputIn).2 _ hname

end

end Toml.Plain
end Masthead
