import Masthead.Config
import Masthead.Text.Case

/-! Configurations as tables of a configuration file. Reading never fails: a value of the wrong kind
is left out and reported. -/

namespace Masthead

namespace Config

def integerKeys : List Text :=
  ["width".toList, "name_column".toList, "email_column".toList, "license_url_column".toList,
    "maintainer_column".toList, "max_contributors".toList]

def textKeys : List Text :=
  ["separator_char".toList, "comment_prefix".toList, "spdx_license".toList, "license_url".toList,
    "maintainer_email".toList]

def listKeys : List Text := ["include".toList, "exclude".toList]

def knownKeys : List Text :=
  integerKeys ++ textKeys ++ listKeys ++
    ["contributor_selection".toList, "manual_contributors".toList]

def unknownKeys (names : List Text) : List Text :=
  Text.sort (names.eraseDups.filter (!knownKeys.contains ·))

structure UnknownFields where
  names : List Text
deriving DecidableEq, Repr

def UnknownFields.message (e : UnknownFields) : Text :=
  "Unknown configuration field(s): " ++ Text.join ", ".toList e.names

inductive Rejection where
  | fields (e : UnknownFields)
  | number (e : Text.NumeralFault)
deriving DecidableEq, Repr

def resolveNamed (names : List Text) (settings : List Draft.Setting) : Except Rejection Config :=
  if (unknownKeys names).isEmpty then (resolve settings).mapError .number
  else .error (.fields ⟨unknownKeys names⟩)

/-- `nameColumn` becomes `name_column`: an underscore goes before a capital that follows a small
letter or a digit. -/
def underscored (before : Char) : Text → Text
  | [] => []
  | c :: rest =>
    let small := ('a' ≤ before && before ≤ 'z') || ('0' ≤ before && before ≤ '9')
    if small && 'A' ≤ c && c ≤ 'Z' then '_' :: c :: underscored c rest
    else c :: underscored c rest

def snakeCase (key : Text) : Text := Text.lower (underscored ' ' key)

def normalizeKeys (t : Table) : Table := Table.ofEntries (t.map fun e => (snakeCase e.1, e.2))

def given? (t : Table) (key : Text) : Option Value :=
  match t.get? key with
  | some .null => none
  | v => v

private def expected (kind : String) (key : Text) (v : Value) : Diagnostic :=
  .warning ("Expected " ++ kind.toList ++ " for '" ++ key ++ "', got " ++ v.shown ++ "; ignoring")

def integer (t : Table) (key : Text) : Option Int × List Diagnostic :=
  match given? t key with
  | none => (none, [])
  | some (.integer n) => (some n, [])
  | some v => (none, [expected "an integer" key v])

def text (t : Table) (key : Text) : Option Text × List Diagnostic :=
  match given? t key with
  | none => (none, [])
  | some (.text s) => (some s, [])
  | some (.integer n) => (some (Text.ofInt n), [])
  | some (.float x) => (some x.text, [])
  | some v => (none, [expected "a string" key v])

def sieve {α : Type} (item? : Value → Option α) (note : Value → Diagnostic) :
    List Value → List α × List Diagnostic
  | [] => ([], [])
  | v :: vs =>
    let (kept, notes) := sieve item? note vs
    match item? v with
    | some a => (a :: kept, notes)
    | none => (kept, note v :: notes)

def asText? : Value → Option Text
  | .text s => some s
  | _ => none

def asTable? : Value → Option Table
  | .table t => some t
  | _ => none

def textList (t : Table) (key : Text) : Option (List Text) × List Diagnostic :=
  match given? t key with
  | none => (none, [])
  | some (.list vs) =>
    let (kept, notes) := sieve asText?
      (fun v => .warning ("Ignoring non-string entry " ++ v.shown ++ " in '" ++ key ++ "'")) vs
    (some kept, notes)
  | some v => (none, [expected "a list" key v])

def tableList (t : Table) (key : Text) : Option (List Table) × List Diagnostic :=
  match given? t key with
  | none => (none, [])
  | some (.list vs) =>
    let (kept, notes) := sieve asTable?
      (fun v => .warning ("Ignoring non-table entry " ++ v.shown ++ " in '" ++ key ++ "'")) vs
    (some kept, notes)
  | some v => (none, [expected "a list of tables" key v])

def asContributor? (t : Table) : Option Contributor :=
  match t.get? "name", t.get? "email" with
  | some (.text name), some (.text email) =>
    if name.isEmpty || email.isEmpty then none else some ⟨name, email⟩
  | _, _ => none

def contributors (t : Table) (key : Text) : Option (List Contributor) × List Diagnostic :=
  match tableList t key with
  | (none, notes) => (none, notes)
  | (some tables, notes) =>
    let (kept, ignored) := sieve (fun v => (asTable? v).bind asContributor?)
      (fun v => .warning ("Ignoring manual contributor without name and email: " ++ v.shown))
      (tables.map .table)
    (some kept, notes ++ ignored)

def unknownNotes (t : Table) (source : Text) : List Diagnostic :=
  (unknownKeys t.keys).map fun key =>
    .warning ("Unknown configuration key '" ++ key ++ "' in " ++ source)

/-- The values that reading a configuration puts into words: those that become texts or that remarks
show. -/
def worded (t : Table) : List Value :=
  integerKeys.flatMap (rest (fun | .integer _ => [] | v => [v])) ++
    (textKeys ++ ["contributor_selection".toList]).flatMap (rest fun v => [v]) ++
    listKeys.flatMap (rest fun | .list vs => vs | v => [v]) ++
    rest (fun
      | .list vs => vs.filter fun v => ((asTable? v).bind asContributor?).isNone
      | v => [v]) "manual_contributors"
where
  rest (values : Value → List Value) (key : Text) : List Value :=
    ((given? t key).map values).getD []

end Config

namespace Draft

def spelled (data : Table) (camelCase : Bool) : Table :=
  if camelCase then Config.normalizeKeys data else data

def ofTable (data : Table) (file : Option Text) (camelCase : Bool) : Draft :=
  let t := spelled data camelCase
  let width := Config.integer t "width"
  let nameColumn := Config.integer t "name_column"
  let emailColumn := Config.integer t "email_column"
  let licenseUrlColumn := Config.integer t "license_url_column"
  let maintainerColumn := Config.integer t "maintainer_column"
  let maxContributors := Config.integer t "max_contributors"
  let separatorChar := Config.text t "separator_char"
  let commentPrefix := Config.text t "comment_prefix"
  let spdxLicense := Config.text t "spdx_license"
  let licenseUrl := Config.text t "license_url"
  let maintainerEmail := Config.text t "maintainer_email"
  let includes := Config.textList t "include"
  let excludes := Config.textList t "exclude"
  let selection := Config.text t "contributor_selection"
  let manualContributors := Config.contributors t "manual_contributors"
  { width := width.1
    separatorChar := separatorChar.1
    commentPrefix := commentPrefix.1
    nameColumn := nameColumn.1
    emailColumn := emailColumn.1
    licenseUrlColumn := licenseUrlColumn.1
    maintainerColumn := maintainerColumn.1
    spdxLicense := spdxLicense.1
    licenseUrl := licenseUrl.1
    maintainerEmail := maintainerEmail.1
    maxContributors := maxContributors.1
    selection := selection.1
    manualContributors := manualContributors.1
    includes := includes.1
    excludes := excludes.1
    files := file.toList
    diagnostics :=
      Config.unknownNotes t (file.getD "<mapping>") ++ width.2 ++ nameColumn.2 ++ emailColumn.2 ++
        licenseUrlColumn.2 ++ maintainerColumn.2 ++ maxContributors.2 ++ separatorChar.2 ++
        commentPrefix.2 ++ spdxLicense.2 ++ licenseUrl.2 ++ maintainerEmail.2 ++ includes.2 ++
        excludes.2 ++ selection.2 ++ manualContributors.2 }

def read (data : Table) (file : Option Text) (camelCase : Bool) : Except Text.NumeralFault Draft :=
  if (Config.worded (spelled data camelCase)).all Value.isWritable
    then .ok (ofTable data file camelCase)
  else .error .unwritable

end Draft

namespace Config

/-- The fields of a configuration as a table; an empty list of contributors is left out. -/
def toTable (c : Config) : Table :=
  [("width".toList, .integer c.width),
    ("separator_char".toList, .text c.separatorChar),
    ("comment_prefix".toList, .text c.commentPrefix),
    ("name_column".toList, .integer c.nameColumn),
    ("email_column".toList, .integer c.emailColumn),
    ("license_url_column".toList, .integer c.licenseUrlColumn),
    ("maintainer_column".toList, .integer c.maintainerColumn),
    ("spdx_license".toList, .text c.spdxLicense),
    ("license_url".toList, .text c.licenseUrl),
    ("maintainer_email".toList, .text c.maintainerEmail),
    ("max_contributors".toList, .integer c.maxContributors),
    ("contributor_selection".toList, .text c.selection.name),
    ("include".toList, .list (c.includes.map .text)),
    ("exclude".toList, .list (c.excludes.map .text))] ++
  if c.manualContributors.isEmpty then []
  else
    [("manual_contributors".toList, .list (c.manualContributors.map fun p =>
      .table [("name".toList, .text p.name), ("email".toList, .text p.email)]))]

end Config
end Masthead
