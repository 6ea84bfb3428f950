import Masthead.Contributor
import Masthead.Diagnostic
import Masthead.License
import Masthead.Text.Numeral
import Masthead.Value

/-! The configuration of headers. A draft is one layer of it, where every field may be left open;
freezing a draft fills the open fields and reports what looks wrong. -/

namespace Masthead

structure Config where
  width : Int
  separatorChar : Text
  commentPrefix : Text
  nameColumn : Int
  emailColumn : Int
  licenseUrlColumn : Int
  maintainerColumn : Int
  spdxLicense : Text
  licenseUrl : Text
  maintainerEmail : Text
  maxContributors : Nat
  selection : Selection
  manualContributors : List Contributor
  includes : List Text
  excludes : List Text
  files : List Text
  diagnostics : List Diagnostic
deriving DecidableEq, Repr

/-- A layer of a configuration. The selection keeps the word that was written. -/
structure Draft where
  width : Option Int := none
  separatorChar : Option Text := none
  commentPrefix : Option Text := none
  nameColumn : Option Int := none
  emailColumn : Option Int := none
  licenseUrlColumn : Option Int := none
  maintainerColumn : Option Int := none
  spdxLicense : Option Text := none
  licenseUrl : Option Text := none
  maintainerEmail : Option Text := none
  maxContributors : Option Int := none
  selection : Option Text := none
  manualContributors : Option (List Contributor) := none
  includes : Option (List Text) := none
  excludes : Option (List Text) := none
  files : List Text := []
  diagnostics : List Diagnostic := []
deriving DecidableEq, Repr

namespace Config

def separatorChars : Text := ['-', '=', '*']

def defaultWidth : Int := 100
def defaultSeparatorChar : Text := ['-']
def defaultCommentPrefix : Text := ['/', '/']
def defaultNameColumn : Int := 40
def defaultEmailColumn : Int := 65
def defaultLicenseUrlColumn : Int := 40
def defaultMaintainerColumn : Int := 75
def defaultMaxContributors : Nat := 3
def defaultSelection : Selection := .commits

def defaultIncludes : List Text :=
  ["**/*.ts".toList, "**/*.tsx".toList, "**/*.js".toList, "**/*.jsx".toList]

def defaultExcludes : List Text :=
  ["**/node_modules/**".toList, "**/dist/**".toList, "**/build/**".toList, "**/coverage/**".toList]

def defaultIndent : Nat := 10

def room (nameColumn : Int) (commentPrefix : Text) : Int := nameColumn - commentPrefix.length

def thaw (c : Config) : Draft where
  width := c.width
  separatorChar := c.separatorChar
  commentPrefix := c.commentPrefix
  nameColumn := c.nameColumn
  emailColumn := c.emailColumn
  licenseUrlColumn := c.licenseUrlColumn
  maintainerColumn := c.maintainerColumn
  spdxLicense := c.spdxLicense
  licenseUrl := c.licenseUrl
  maintainerEmail := c.maintainerEmail
  maxContributors := some (c.maxContributors : Int)
  selection := some c.selection.name.toList
  manualContributors := c.manualContributors
  includes := c.includes
  excludes := c.excludes
  files := c.files
  diagnostics := c.diagnostics

end Config

namespace Draft

def defaults : Draft where
  width := Config.defaultWidth
  separatorChar := Config.defaultSeparatorChar
  commentPrefix := Config.defaultCommentPrefix
  nameColumn := Config.defaultNameColumn
  emailColumn := Config.defaultEmailColumn
  licenseUrlColumn := Config.defaultLicenseUrlColumn
  maintainerColumn := Config.defaultMaintainerColumn
  spdxLicense := some []
  licenseUrl := some []
  maintainerEmail := some []
  maxContributors := some (Config.defaultMaxContributors : Int)
  selection := some Config.defaultSelection.name.toList
  manualContributors := some []
  includes := Config.defaultIncludes
  excludes := Config.defaultExcludes

/-- What `upper` sets counts before what `lower` sets; files and remarks of both are kept. -/
def mergeWith (lower upper : Draft) : Draft where
  width := upper.width <|> lower.width
  separatorChar := upper.separatorChar <|> lower.separatorChar
  commentPrefix := upper.commentPrefix <|> lower.commentPrefix
  nameColumn := upper.nameColumn <|> lower.nameColumn
  emailColumn := upper.emailColumn <|> lower.emailColumn
  licenseUrlColumn := upper.licenseUrlColumn <|> lower.licenseUrlColumn
  maintainerColumn := upper.maintainerColumn <|> lower.maintainerColumn
  spdxLicense := upper.spdxLicense <|> lower.spdxLicense
  licenseUrl := upper.licenseUrl <|> lower.licenseUrl
  maintainerEmail := upper.maintainerEmail <|> lower.maintainerEmail
  maxContributors := upper.maxContributors <|> lower.maxContributors
  selection := upper.selection <|> lower.selection
  manualContributors := upper.manualContributors <|> lower.manualContributors
  includes := upper.includes <|> lower.includes
  excludes := upper.excludes <|> lower.excludes
  files := lower.files ++ upper.files
  diagnostics := lower.diagnostics ++ upper.diagnostics

/-! The values that open fields take. -/

def widthValue (d : Draft) : Int := d.width.getD Config.defaultWidth

def separatorValue (d : Draft) : Text := d.separatorChar.getD Config.defaultSeparatorChar

def commentPrefixValue (d : Draft) : Text := d.commentPrefix.getD Config.defaultCommentPrefix

def nameColumnValue (d : Draft) : Int := d.nameColumn.getD Config.defaultNameColumn

def maxContributorsValue (d : Draft) : Int :=
  d.maxContributors.getD (Config.defaultMaxContributors : Int)

def selectionValue (d : Draft) : Text := d.selection.getD Config.defaultSelection.name.toList

def spdxValue (d : Draft) : Text := d.spdxLicense.getD []

/-! The remarks on values that look wrong. -/

def widthNotes (d : Draft) : List Diagnostic :=
  if d.widthValue < 0 then
    [.warning ("width " ++ Text.ofInt d.widthValue ++ " is negative; separators collapse")]
  else []

def separatorNotes (d : Draft) : List Diagnostic :=
  if d.separatorValue.isEmpty then [.warning "separator_char is empty; using '-'"]
  else if d.separatorValue.any (· ∉ Config.separatorChars) then
    [.warning ("separator_char " ++ Text.quoted d.separatorValue ++ " is not one of '" ++
      Config.separatorChars ++ "'; generated headers will not parse back")]
  else []

def columnNotes (d : Draft) : List Diagnostic :=
  let room := Config.room d.nameColumnValue d.commentPrefixValue
  if room < Config.defaultIndent then
    [.info ("name_column " ++ Text.ofInt d.nameColumnValue ++ " leaves " ++ Text.ofInt room ++
      " column(s) after the comment prefix; continuation lines are recognized with " ++
      Text.ofInt (max 1 room) ++ " space(s) of indentation")]
  else []

def maxContributorsNotes (d : Draft) : List Diagnostic :=
  if d.maxContributorsValue < 0 then
    [.warning ("max_contributors " ++ Text.ofInt d.maxContributorsValue ++
      " is negative; using 0")]
  else []

def selectionNotes (d : Draft) : List Diagnostic :=
  match Selection.ofName? d.selectionValue with
  | some _ => []
  | none =>
    [.warning ("Unknown contributor_selection " ++ Text.quoted d.selectionValue ++ "; using '" ++
      Config.defaultSelection.name.toList ++ "'")]

/-- The remarks on one value after the other, each behind the numbers that it puts into words. -/
def remarks (d : Draft) : List (List Int × List Diagnostic) := [
  (if d.widthValue < 0 then [d.widthValue] else [], d.widthNotes),
  ([], d.separatorNotes),
  (let room := Config.room d.nameColumnValue d.commentPrefixValue
    if room < Config.defaultIndent then [d.nameColumnValue, room] else [], d.columnNotes),
  (if d.maxContributorsValue < 0 then [d.maxContributorsValue] else [], d.maxContributorsNotes),
  ([], d.selectionNotes)]

def notes (d : Draft) : List Diagnostic := d.remarks.flatMap (·.2)

def worded (d : Draft) : List Int := d.remarks.flatMap (·.1)

/-- The configuration with the open fields filled in. Values that headers cannot be built with are
replaced, and the page of the license is looked up where none is given. -/
def filled (d : Draft) : Config where
  width := d.widthValue
  separatorChar := if d.separatorValue.isEmpty then Config.defaultSeparatorChar
    else d.separatorValue
  commentPrefix := d.commentPrefixValue
  nameColumn := d.nameColumnValue
  emailColumn := d.emailColumn.getD Config.defaultEmailColumn
  licenseUrlColumn := d.licenseUrlColumn.getD Config.defaultLicenseUrlColumn
  maintainerColumn := d.maintainerColumn.getD Config.defaultMaintainerColumn
  spdxLicense := d.spdxValue
  licenseUrl :=
    if (d.licenseUrl.getD []).isEmpty then License.page d.spdxValue else d.licenseUrl.getD []
  maintainerEmail := d.maintainerEmail.getD []
  maxContributors := d.maxContributorsValue.toNat
  selection := (Selection.ofName? d.selectionValue).getD Config.defaultSelection
  manualContributors := d.manualContributors.getD []
  includes := d.includes.getD Config.defaultIncludes
  excludes := d.excludes.getD Config.defaultExcludes
  files := d.files
  diagnostics := d.diagnostics ++ d.notes

/-- The configuration of a draft, unless a remark on it has a number with too many digits. -/
def freeze (d : Draft) : Except Text.NumeralFault Config :=
  if d.worded.all Text.isWritable then .ok d.filled else .error .unwritable

inductive Setting where
  | width (v : Option Int)
  | separatorChar (v : Option Text)
  | commentPrefix (v : Option Text)
  | nameColumn (v : Option Int)
  | emailColumn (v : Option Int)
  | licenseUrlColumn (v : Option Int)
  | maintainerColumn (v : Option Int)
  | spdxLicense (v : Option Text)
  | licenseUrl (v : Option Text)
  | maintainerEmail (v : Option Text)
  | maxContributors (v : Option Int)
  | selection (v : Option Text)
  | manualContributors (v : Option (List Contributor))
  | includes (v : Option (List Text))
  | excludes (v : Option (List Text))
deriving DecidableEq, Repr

def set (d : Draft) : Setting → Draft
  | .width v => { d with width := v }
  | .separatorChar v => { d with separatorChar := v }
  | .commentPrefix v => { d with commentPrefix := v }
  | .nameColumn v => { d with nameColumn := v }
  | .emailColumn v => { d with emailColumn := v }
  | .licenseUrlColumn v => { d with licenseUrlColumn := v }
  | .maintainerColumn v => { d with maintainerColumn := v }
  | .spdxLicense v => { d with spdxLicense := v }
  | .licenseUrl v => { d with licenseUrl := v }
  | .maintainerEmail v => { d with maintainerEmail := v }
  | .maxContributors v => { d with maxContributors := v }
  | .selection v => { d with selection := v }
  | .manualContributors v => { d with manualContributors := v }
  | .includes v => { d with includes := v }
  | .excludes v => { d with excludes := v }

def setAll (d : Draft) (settings : List Setting) : Draft := settings.foldl set d

end Draft

namespace Config

def resolve (settings : List Draft.Setting) : Except Text.NumeralFault Config :=
  (Draft.defaults.setAll settings).freeze

end Config
end Masthead
