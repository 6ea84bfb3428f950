import Masthead.Proofs.Chain
import Masthead.Toml
import Mathlib.Data.List.Basic

/-! What a library owes to those who put entries into its documents. A document is a dictionary: an
entry is in its data once it was put there, and what does not stand on the way to it stays as it
was. -/

namespace Masthead

def Value.surface : Value → Value
  | .table _ => .table []
  | v => v

namespace Table
variable {t t' : Table} {key : Text} {v : Value}

@[simp]
theorem get?_nil (key : Text) : get? [] key = none := rfl

theorem get?_cons (key name : Text) (v : Value) (t : Table) :
    get? ((key, v) :: t) name = if key = name then some v else get? t name := by
  rw [get?, List.find?_cons]
  split_ifs with hkey
  · simp [hkey]
  · simp [hkey, get?]

theorem mem_keys_iff : key ∈ t.keys ↔ (t.get? key).isSome = true := by
  rw [get?, Option.isSome_map, List.find?_isSome, keys, List.mem_map]
  simp

@[simp]
theorem follow_nil (way : List Text) : follow [] way = [] := by
  cases way <;> rfl

theorem follow_append (t : Table) (way way' : List Text) :
    t.follow (way ++ way') = (t.follow way).follow way' := by
  induction way generalizing t with
  | nil => rfl
  | cons key way ih =>
    rw [List.cons_append, follow, follow]
    split
    · exact ih _
    · rw [follow_nil]

/-- The tables hold the same, in whatever order they hold it. -/
def Alike (t t' : Table) : Prop :=
  ∀ way key, ((t.follow way).get? key).map Value.surface =
    ((t'.follow way).get? key).map Value.surface

theorem Alike.refl (t : Table) : t.Alike t := fun _ _ => rfl

theorem Alike.follow (h : t.Alike t') (way : List Text) : (t.follow way).Alike (t'.follow way) := by
  intro way' key
  rw [← follow_append, ← follow_append, h]

theorem Alike.get?_eq (h : t.Alike t') (hv : ∀ inner, t'.get? key ≠ some (.table inner)) :
    t.get? key = t'.get? key := by
  have hsurface : (t.get? key).map Value.surface = (t'.get? key).map Value.surface := h [] key
  cases hv' : t'.get? key with
  | none => simpa [hv'] using hsurface
  | some v' =>
    rw [hv'] at hsurface hv
    obtain ⟨v, hv, hsame⟩ := Option.map_eq_some_iff.mp hsurface
    rw [hv]
    cases v' with
    | table inner => exact absurd rfl (hv _)
    | _ => cases v <;> simp_all [Value.surface]

theorem Alike.exists_table {inner : Table} (h : t.Alike t')
    (hinner : t'.get? key = some (.table inner)) :
    ∃ u : Table, t.get? key = some (.table u) ∧ u.Alike inner := by
  have hsurface : (t.get? key).map Value.surface = (t'.get? key).map Value.surface := h [] key
  rw [hinner] at hsurface
  obtain ⟨v, hv, hsame⟩ := Option.map_eq_some_iff.mp hsurface
  cases v with
  | table u =>
    have hway : (t.follow [key]).Alike (t'.follow [key]) := h.follow [key]
    have hu : t.follow [key] = u := by simp only [Table.follow, hv]
    have hinner : t'.follow [key] = inner := by simp only [Table.follow, hinner]
    rw [hu, hinner] at hway
    exact ⟨u, hv, hway⟩
  | _ => cases hsame

end Table

namespace Toml

def Content.value? : Content → Option Value
  | .value v => some v
  | .points s => s.text?.map .text

/-- The values that stand under the keys, unless half of a pair of units is in one. -/
def table? : List (Text × Content) → Option Table
  | [] => some []
  | (key, content) :: values => do return (key, ← content.value?) :: (← table? values)

theorem table?_cons_eq_some {key : Text} {content : Content} {values : List (Text × Content)}
    {vs : Table} (h : table? ((key, content) :: values) = some vs) :
    ∃ v us, content.value? = some v ∧ table? values = some us ∧ vs = (key, v) :: us := by
  rw [table?] at h
  cases hv : content.value? with
  | none =>
    rw [hv] at h
    cases h
  | some v =>
    cases hus : table? values with
    | none =>
      rw [hv, hus] at h
      cases h
    | some us =>
      rw [hv, hus] at h
      exact ⟨v, us, rfl, rfl, (Option.some.inj h).symm⟩

def Entry.value? : Entry → Option Value
  | .frame => none
  | .table values => (table? values).map .table
  | .plain content => content.value?

variable [Library]

structure IsDictionary : Prop where
  /-- What the library does not find is not in the data. -/
  absent {d : Document} {t : Table} {key : Text} (ht : Library.data d = .ok t)
    (hshape : Library.shape? d [key] = .ok none) : t.get? key = none
  /-- An entry under a new key at the top leaves a document with data. -/
  top {d d' : Document} {t : Table} {key : Text} {entry : Entry} (ht : Library.data d = .ok t)
    (habsent : t.get? key = none) (hput : Library.put d [] key entry = .ok d') : ∃ t',
    Library.data d' = .ok t'
  /-- An entry is where it was put. -/
  entry {d d' : Document} {t' : Table} {way : List Text} {key : Text} {entry : Entry} {v : Value}
    (hput : Library.put d way key entry = .ok d') (ht' : Library.data d' = .ok t')
    (hv : entry.value? = some v) :
    (t'.follow way).get? key = some v
  /-- What stands elsewhere stays there. -/
  others {d d' : Document} {t t' : Table} {way : List Text} {key name : Text} {entry : Entry}
    (ht : Library.data d = .ok t) (hput : Library.put d way key entry = .ok d')
    (ht' : Library.data d' = .ok t')
    (hname : (way ++ [key]).head? ≠ some name) : t'.get? name = t.get? name

namespace IsDictionary
variable {d d' : Document} {t t' vs : Table} {key : Text} {values : List (Text × Content)}
  (hlaws : IsDictionary)
include hlaws

theorem data_foldlM (hvs : table? values = some vs) (hkeys : (values.map (·.1)).Nodup)
    (hnew : ∀ key ∈ values.map (·.1), t.get? key = none) (ht : Library.data d = .ok t)
    (hput : values.foldlM (fun d e => Library.put d [] e.1 (.plain e.2)) d = .ok d') :
    ∃ t', Library.data d' = .ok t' ∧ ∀ name, t'.get? name = (t.get? name).or (vs.get? name) := by
  induction values generalizing d t vs with
  | nil =>
    cases hvs
    cases hput
    exact ⟨t, ht, fun name => by simp⟩
  | cons e values ih =>
    obtain ⟨key, content⟩ := e
    rw [List.foldlM_cons] at hput
    obtain ⟨d₁, hfirst, hrest⟩ := exists_of_bind_eq_ok hput
    rw [List.map_cons, List.nodup_cons] at hkeys
    rw [List.map_cons, List.forall_mem_cons] at hnew
    obtain ⟨v, us, hv, hus, rfl⟩ := table?_cons_eq_some hvs
    obtain ⟨t₁, ht₁⟩ := hlaws.top ht hnew.1 hfirst
    have hthere : t₁.get? key = some v := hlaws.entry hfirst ht₁ hv
    have hothers (name : Text) (hname : name ≠ key) : t₁.get? name = t.get? name :=
      hlaws.others ht hfirst ht₁ (by simpa using hname.symm)
    obtain ⟨t', ht', hsame⟩ := ih hus hkeys.2 (fun name hmem => by
      rw [hothers name fun heq => hkeys.1 (heq ▸ hmem)]
      exact hnew.2 name hmem) ht₁ hrest
    refine ⟨t', ht', fun name => ?_⟩
    rw [hsame, Table.get?_cons]
    by_cases hname : key = name
    · subst hname
      rw [hthere, hnew.1, if_pos rfl]
      rfl
    · rw [hothers name (Ne.symm hname), if_neg hname]

theorem data_addPlain (hvs : table? values = some vs) (hkeys : (values.map (·.1)).Nodup)
    (hadd : Document.addPlain d values = .ok d') :
    ∃ t', Library.data d' = .ok t' ∧ ∀ name, t'.get? name = vs.get? name := by
  rw [Document.addPlain] at hadd
  obtain ⟨t, ht, hrest⟩ := exists_of_bind_eq_ok hadd
  split_ifs at hrest with hempty
  obtain rfl : t = [] := List.isEmpty_iff.mp hempty
  obtain ⟨t', ht', hsame⟩ :=
    hlaws.data_foldlM hvs hkeys (fun _ _ => rfl) (eq_ok_of_mapError_eq_ok ht)
    (eq_ok_of_mapError_eq_ok hrest)
  exact ⟨t', ht', fun name => by rw [hsame, Table.get?_nil, Option.none_or]⟩

theorem data_opened {name : Text} (ht : Library.data d = .ok t)
    (h : Document.opened d [] [name] = .ok d') :
    ∃ t', Library.data d' = .ok t' ∧ ∀ other ≠ name, t'.get? other = t.get? other := by
  have hend {d₁ : Document} (h : (do
      let shape ← asked (Library.shape? d₁ [name])
      if shape = some Shape.table then Document.opened d₁ [name] [] else .error (.notTable name)) =
        .ok d') :
      d' = d₁ := by
    obtain ⟨shape, -, hrest⟩ := exists_of_bind_eq_ok h
    split_ifs at hrest
    exact (Except.ok.inj hrest).symm
  rw [Document.opened] at h
  obtain ⟨shape, hshape, hrest⟩ := exists_of_bind_eq_ok h
  dsimp only [List.nil_append] at hrest
  cases shape with
  | some shape =>
    obtain rfl := hend hrest
    exact ⟨t, ht, fun _ _ => rfl⟩
  | none =>
    obtain ⟨d₁, hput, hrest⟩ := exists_of_bind_eq_ok hrest
    obtain rfl := hend hrest
    have hput := eq_ok_of_mapError_eq_ok hput
    obtain ⟨t', ht'⟩ := hlaws.top ht (hlaws.absent ht (eq_ok_of_mapError_eq_ok hshape)) hput
    exact ⟨t', ht', fun other hother => hlaws.others ht hput ht' (by simpa using hother.symm)⟩

/-- A table that is added in another one is there, and what stands outside of that one stays. -/
theorem data_addUnder {name : Text} (hvs : table? values = some vs) (ht : Library.data d = .ok t)
    (hadd : Document.addUnder d [name] key values = .ok d') (ht' : Library.data d' = .ok t') :
    (t'.follow [name]).get? key = some (.table vs) ∧ ∀ other ≠ name, t'.get? other =
    t.get? other := by
  rw [Document.addUnder] at hadd
  obtain ⟨d₁, hopened, hrest⟩ := exists_of_bind_eq_ok hadd
  obtain ⟨shape, -, hrest⟩ := exists_of_bind_eq_ok hrest
  split_ifs at hrest
  obtain ⟨t₁, ht₁, hsame⟩ := hlaws.data_opened ht hopened
  have hput := eq_ok_of_mapError_eq_ok hrest
  refine ⟨hlaws.entry hput ht' (by rw [Entry.value?, hvs]; rfl), fun other hother => ?_⟩
  rw [hlaws.others ht₁ hput ht' (by simpa using hother.symm), hsame other hother]

end IsDictionary
end Toml
end Masthead
