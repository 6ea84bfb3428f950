import Masthead.Config.Discovery
import Masthead.Proofs.Config.Table
import Masthead.Proofs.Header.Usable
import Mathlib

/-! What becomes of the entries of a configuration table. A field is set by a value of its kind, and
what is not taken over is reported: keys that no field has, values of another kind, and the items of
lists that are left out. Only a number with too many digits, which cannot be put into words, stops
the reading. -/

namespace Masthead

namespace Config

/-! The fields -/

inductive Kind where
  | integer
  | wording
  | texts
  | people
deriving DecidableEq, Repr

namespace Kind

def fits : Kind → Value → Bool
  | .integer, v => v.asInteger?.isSome
  | .wording, v => v.asWording?.isSome
  | .texts, v => v.asTexts?.isSome
  | .people, v => v.asPeople?.isSome

def strays : Kind → Value → Nat
  | .texts, .list vs => vs.countP fun v => (asText? v).isNone
  | .people, .list vs => vs.countP fun v => (asTable? v).isNone
  | _, _ => 0

def nameless : Kind → Value → Nat
  | .people, .list vs => (vs.filterMap asTable?).countP fun t => (asContributor? t).isNone
  | _, _ => 0

end Kind

def fields : List (Text × Kind) :=
  integerKeys.map (·, .integer) ++ textKeys.map (·, .wording) ++ listKeys.map (·, .texts) ++
    [("contributor_selection".toList, .wording), ("manual_contributors".toList, .people)]

example : fields.map Prod.fst = knownKeys := rfl

def isMisfit (t : Table) (field : Text × Kind) : Bool := (given? t field.1).any (!field.2.fits ·)

def strayItems (t : Table) (field : Text × Kind) : Nat :=
  ((given? t field.1).map field.2.strays).getD 0

def namelessTables (t : Table) (field : Text × Kind) : Nat :=
  ((given? t field.1).map field.2.nameless).getD 0

def unknownCount (t : Table) : Nat := t.keys.eraseDups.countP (!knownKeys.contains ·)

/-- The layer has all of the table that its fields can take, and a remark on everything else but
null values. -/
structure Accounts (t : Table) (d : Draft) : Prop where
  width : d.width = setting Value.asInteger? t "width"
  nameColumn : d.nameColumn = setting Value.asInteger? t "name_column"
  emailColumn : d.emailColumn = setting Value.asInteger? t "email_column"
  licenseUrlColumn : d.licenseUrlColumn = setting Value.asInteger? t "license_url_column"
  maintainerColumn : d.maintainerColumn = setting Value.asInteger? t "maintainer_column"
  maxContributors : d.maxContributors = setting Value.asInteger? t "max_contributors"
  separatorChar : d.separatorChar = setting Value.asWording? t "separator_char"
  commentPrefix : d.commentPrefix = setting Value.asWording? t "comment_prefix"
  spdxLicense : d.spdxLicense = setting Value.asWording? t "spdx_license"
  licenseUrl : d.licenseUrl = setting Value.asWording? t "license_url"
  maintainerEmail : d.maintainerEmail = setting Value.asWording? t "maintainer_email"
  includes : d.includes = setting Value.asTexts? t "include"
  excludes : d.excludes = setting Value.asTexts? t "exclude"
  selection : d.selection = setting Value.asWording? t "contributor_selection"
  manualContributors : d.manualContributors = setting Value.asPeople? t "manual_contributors"
  remarks : d.diagnostics.length = unknownCount t + fields.countP (isMisfit t) +
    (fields.map (strayItems t)).sum + (fields.map (namelessTables t)).sum

/-! The remarks on a field -/

section Remarks
variable {t : Table} {key : Text}

theorem length_sieve_snd {α : Type} (item? : Value → Option α) (note : Value → Diagnostic)
    (vs : List Value) :
    (sieve item? note vs).2.length = vs.countP fun v => (item? v).isNone := by
  induction vs with
  | nil => rfl
  | cons v vs ih =>
    rw [sieve, List.countP_cons]
    cases item? v with
    | none => exact congrArg (· + 1) ih
    | some a => exact ih

def notesOn (t : Table) (field : Text × Kind) : List Diagnostic :=
  match field.2 with
  | .integer => (integer t field.1).2
  | .wording => (text t field.1).2
  | .texts => (textList t field.1).2
  | .people => (contributors t field.1).2

def remarkCount (t : Table) (field : Text × Kind) : Nat :=
  (if isMisfit t field then 1 else 0) + strayItems t field + namelessTables t field

theorem length_integer_snd (t : Table) (key : Text) :
    (integer t key).2.length = remarkCount t (key, .integer) := by
  rw [integer, remarkCount, isMisfit, strayItems, namelessTables]
  cases given? t key with
  | none => rfl
  | some v => cases v <;> rfl

theorem length_text_snd (t : Table) (key : Text) :
    (text t key).2.length = remarkCount t (key, .wording) := by
  rw [text, remarkCount, isMisfit, strayItems, namelessTables]
  cases given? t key with
  | none => rfl
  | some v => cases v <;> rfl

theorem length_textList_snd (t : Table) (key : Text) :
    (textList t key).2.length = remarkCount t (key, .texts) := by
  rw [textList, remarkCount, isMisfit, strayItems, namelessTables]
  cases given? t key with
  | none => rfl
  | some v =>
    cases v with
    | list vs => exact (length_sieve_snd _ _ vs).trans (Nat.zero_add _).symm
    | _ => rfl

theorem length_contributors_snd (t : Table) (key : Text) :
    (contributors t key).2.length = remarkCount t (key, .people) := by
  rw [contributors, tableList, remarkCount, isMisfit, strayItems, namelessTables]
  cases given? t key with
  | none => rfl
  | some v =>
    cases v with
    | list vs =>
      dsimp only
      rw [List.length_append, length_sieve_snd, length_sieve_snd, sieve_fst, List.countP_map]
      rw [Option.map_some, Option.getD_some, Option.map_some, Option.getD_some, Kind.strays,
        Kind.nameless]
      exact congrArg (· + _) (Nat.zero_add _).symm
    | _ => rfl

theorem length_notesOn (t : Table) (field : Text × Kind) :
    (notesOn t field).length = remarkCount t field := by
  obtain ⟨key, kind⟩ := field
  cases kind with
  | integer => exact length_integer_snd t key
  | wording => exact length_text_snd t key
  | texts => exact length_textList_snd t key
  | people => exact length_contributors_snd t key

theorem sum_remarkCount (t : Table) (l : List (Text × Kind)) :
    (l.map (remarkCount t)).sum =
      l.countP (isMisfit t) + (l.map (strayItems t)).sum + (l.map (namelessTables t)).sum := by
  induction l with
  | nil => rfl
  | cons field l ih =>
    rw [List.map_cons, List.sum_cons, ih, List.countP_cons, List.map_cons, List.sum_cons,
      List.map_cons, List.sum_cons, remarkCount]
    omega

theorem length_unknownNotes (t : Table) (source : Text) :
    (unknownNotes t source).length = unknownCount t := by
  rw [unknownNotes, List.length_map, unknownKeys, Text.sort, List.length_mergeSort, unknownCount,
    List.countP_eq_length_filter]

end Remarks

theorem diagnostics_ofTable (t : Table) (file : Option Text) :
    (Draft.ofTable t file false).diagnostics =
      unknownNotes t (file.getD "<mapping>") ++ fields.flatMap (notesOn t) := by
  simp only [Draft.ofTable, fields, integerKeys, textKeys, listKeys, List.map_cons, List.map_nil,
    List.cons_append, List.nil_append, List.flatMap_cons, List.flatMap_nil, List.append_nil,
    List.append_assoc, notesOn]
  rfl

theorem ofTable_accounts (t : Table) (file : Option Text) :
    Accounts t (Draft.ofTable t file false) where
  width := integer_fst t _
  nameColumn := integer_fst t _
  emailColumn := integer_fst t _
  licenseUrlColumn := integer_fst t _
  maintainerColumn := integer_fst t _
  maxContributors := integer_fst t _
  separatorChar := text_fst t _
  commentPrefix := text_fst t _
  spdxLicense := text_fst t _
  licenseUrl := text_fst t _
  maintainerEmail := text_fst t _
  includes := textList_fst t _
  excludes := textList_fst t _
  selection := text_fst t _
  manualContributors := contributors_fst t _
  remarks := by
    rw [diagnostics_ofTable, List.length_append, length_unknownNotes, List.length_flatMap,
      List.map_congr_left fun field _ => length_notesOn t field, sum_remarkCount]
    omega

/-- Every entry of a table is accounted for, unless a number has more digits than can be written in
what becomes a text or is shown in a remark; this number stops the reading. -/
theorem read_accounts (t : Table) (file : Option Text) :
    ((∀ v ∈ worded t, v.isWritable = true) → ∃ d, Draft.read t file false = .ok d ∧ Accounts t d) ∧
      ((∃ v ∈ worded t, v.isWritable = false) → Draft.read t file false = .error .unwritable) := by
  constructor
  · intro hwritable
    exact ⟨_, if_pos (List.all_eq_true.mpr hwritable), ofTable_accounts t file⟩
  · rintro ⟨v, hv, hlong⟩
    refine if_neg fun hall => ?_
    rw [List.all_eq_true.mp hall v hv] at hlong
    cases hlong

section Examples

/-- One entry of each sort: a value of another kind, a number for a text, null, an unknown key, and
lists with items that are left out. -/
def mixed : Table :=
  [("width".toList, .bool true), ("name_column".toList, .integer 30),
    ("spdx_license".toList, .integer 7), ("comment_prefix".toList, .null),
    ("colour".toList, .text "red".toList),
    ("include".toList, .list [.text "a".toList, .bool false, .null]),
    ("manual_contributors".toList, .list [.table (personTable .jane), .table [],
    .text "Jane".toList])]

theorem read_accounts_mixed :
    (∀ v ∈ worded mixed, v.isWritable = true) ∧
      ∃ d, Draft.read mixed none false = .ok d ∧ d.width = none ∧ d.nameColumn = some 30 ∧
        d.spdxLicense = some "7".toList ∧ d.commentPrefix = none ∧ d.includes = some ["a".toList] ∧
        d.manualContributors = some [.jane] ∧ d.diagnostics.length = 6 := by
  have hseven : Text.isWritable 7 = true := Text.isWritable_of_lt (by decide)
  have hworded : worded mixed =
      [.bool true, .integer 7, .text "a".toList, .bool false, .null, .table [],
        .text "Jane".toList] := rfl
  have hwritable : ∀ v ∈ worded mixed, v.isWritable = true := by
    rw [hworded]
    simp [hseven, Value.isWritable, Value.entriesWritable]
  obtain ⟨d, hread, h⟩ := (read_accounts mixed none).1 hwritable
  exact ⟨hwritable, d, hread, h.width.trans (by decide), h.nameColumn.trans (by decide),
    h.spdxLicense.trans (by decide), h.commentPrefix.trans (by decide),
    h.includes.trans (by decide), h.manualContributors.trans (by decide),
    h.remarks.trans (by decide)⟩

def long : Value := .integer (10 ^ Text.digitLimit : Nat)

/-- A license that is such a number is there and of the kind that its field takes, but nothing comes
of the table. -/
theorem read_stops_at_long :
    given? [("spdx_license".toList, long)] "spdx_license" = some long ∧
    Kind.wording.fits long = true ∧
      Draft.read [("spdx_license".toList, long)] none false = .error .unwritable := by
  have hlong : long.isWritable = false := by
    rw [long, Value.isWritable, Text.isWritable, Int.natAbs_natCast, Nat.pow_eq]
    simp
  have hworded : worded [("spdx_license".toList, long)] = [long] := rfl
  refine ⟨rfl, rfl, if_neg fun hall => ?_⟩
  have hshort : (worded [("spdx_license".toList, long)]).all Value.isWritable = true := hall
  rw [hworded, List.all_cons, hlong] at hshort
  cases hshort

end Examples

end Config
end Masthead
