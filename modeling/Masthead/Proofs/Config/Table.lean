import Masthead.Config.Table

/-! What a configuration table sets. A key sets a field where its value is there and of the right
kind; such a value is read without a remark. -/

namespace Masthead

namespace Value

/-! The values that fields take -/

def asInteger? : Value → Option Int
  | .integer n => some n
  | _ => none

def asWording? : Value → Option Text
  | .text s => some s
  | .integer n => some (Text.ofInt n)
  | .float x => some x.text
  | _ => none

def asTexts? : Value → Option (List Text)
  | .list vs => some (vs.filterMap Config.asText?)
  | _ => none

def asPeople? : Value → Option (List Contributor)
  | .list vs => some (vs.filterMap fun v => (Config.asTable? v).bind Config.asContributor?)
  | _ => none

end Value

namespace Config
variable {t : Table} {key : Text} {v : Value}

def setting {α : Type} (kind : Value → Option α) (t : Table) (key : Text) : Option α :=
  (given? t key).bind kind

section Sieve
variable {α : Type} {item? : Value → Option α} {note : Value → Diagnostic}

theorem sieve_fst (vs : List Value) : (sieve item? note vs).1 = vs.filterMap item? := by
  induction vs with
  | nil => rfl
  | cons v vs ih =>
    rw [sieve, List.filterMap_cons]
    cases item? v with
    | none => exact ih
    | some a => exact congrArg (a :: ·) ih

theorem sieve_map {f : α → Value} {l : List α} (h : ∀ a ∈ l, item? (f a) = some a) :
    sieve item? note (l.map f) = (l, []) := by
  induction l with
  | nil => rfl
  | cons a l ih =>
    obtain ⟨ha, hl⟩ := List.forall_mem_cons.mp h
    rw [List.map_cons, sieve, ha, ih hl]

end Sieve

theorem tableList_of_given {vs : List Value} (h : given? t key = some (.list vs)) :
    ∃ notes, tableList t key = (some (vs.filterMap asTable?), notes) := by
  rw [tableList, h, ← sieve_fst]
  exact ⟨_, rfl⟩

/-! What is read is what the table sets -/

theorem integer_fst (t : Table) (key : Text) :
    (integer t key).1 = setting Value.asInteger? t key := by
  rw [integer, setting]
  cases given? t key with
  | none => rfl
  | some v => cases v <;> rfl

theorem text_fst (t : Table) (key : Text) : (text t key).1 = setting Value.asWording? t key := by
  rw [text, setting]
  cases given? t key with
  | none => rfl
  | some v => cases v <;> rfl

theorem textList_fst (t : Table) (key : Text) :
    (textList t key).1 = setting Value.asTexts? t key := by
  rw [textList, setting]
  cases given? t key with
  | none => rfl
  | some v =>
    cases v with
    | list vs => exact congrArg some (sieve_fst vs)
    | _ => rfl

theorem contributors_fst (t : Table) (key : Text) :
    (contributors t key).1 = setting Value.asPeople? t key := by
  rw [contributors, setting]
  cases hv : given? t key with
  | none => rw [tableList, hv]; rfl
  | some v =>
    cases v with
    | list vs =>
      obtain ⟨notes, htables⟩ := tableList_of_given hv
      rw [htables]
      refine congrArg some ((sieve_fst _).trans ?_)
      rw [List.filterMap_map, List.filterMap_filterMap]
      rfl
    | _ => rw [tableList, hv]; rfl

/-! A list of the right kind is read without a remark -/

theorem textList_of_given {l : List Text} (h : given? t key = some (.list (l.map .text))) :
    textList t key = (some l, []) := by
  rw [textList, h]
  dsimp only
  rw [@sieve_map _ asText? _ Value.text l fun _ _ => rfl]

def personTable (p : Contributor) : Table :=
  [("name".toList, .text p.name), ("email".toList, .text p.email)]

theorem asContributor?_personTable {p : Contributor} (hname : p.name ≠ []) (hemail : p.email ≠ []) :
    asContributor? (personTable p) = some p := by
  have hn : (personTable p).get? "name" = some (.text p.name) := rfl
  have he : (personTable p).get? "email" = some (.text p.email) := rfl
  rw [asContributor?, hn, he]
  simp [hname, hemail]

theorem contributors_of_given {people : List Contributor}
    (h : given? t key = some (.list (people.map fun p => .table (personTable p))))
    (hnames : ∀ p ∈ people, p.name ≠ [] ∧ p.email ≠ []) :
    contributors t key = (some people, []) := by
  have htables : tableList t key = (some (people.map personTable), []) := by
    rw [tableList, h]
    dsimp only
    rw [show people.map (fun p => Value.table (personTable p)) =
      (people.map personTable).map .table by
        simp, @sieve_map _ asTable? _ Value.table (people.map personTable) fun _ _ => rfl]
  have hpeople (p : Contributor) (hp : p ∈ people) : asContributor? (personTable p) = some p :=
    asContributor?_personTable (hnames p hp).1 (hnames p hp).2
  rw [contributors, htables]
  dsimp only
  rw [List.map_map, @sieve_map _ (fun v => (asTable? v).bind asContributor?) _
    (.table ∘ personTable) people hpeople]
  rfl

theorem unknownKeys_eq_nil {names : List Text} (h : names ⊆ knownKeys) :
    unknownKeys names = [] := by
  have hunknown : (names.eraseDups.filter (!knownKeys.contains ·)) = [] := by
    rw [List.filter_eq_nil_iff]
    intro k hk
    have hmem : k ∈ names := by simpa using hk
    simpa using h hmem
  rw [unknownKeys, hunknown, Text.sort, List.mergeSort_nil]

theorem unknownNotes_eq_nil (h : t.keys ⊆ knownKeys) (source : Text) :
    unknownNotes t source = [] := by
  rw [unknownNotes, unknownKeys_eq_nil h]
  rfl

end Config
end Masthead
