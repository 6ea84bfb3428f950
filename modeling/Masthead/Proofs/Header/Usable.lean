import Masthead.Proofs.Config.Freezing
import Masthead.Proofs.Header.Legible

/-! Which configurations write headers that can be read back, and which contributors they have room
for. -/

namespace Masthead

namespace Config

@[simp]
theorem dialect_commentPrefix (c : Config) : c.dialect.commentPrefix = c.commentPrefix := rfl

theorem dialect_indent_pos (c : Config) : 1 ≤ c.dialect.indent := by
  simp only [dialect]
  omega

structure Framed (c : Config) : Prop where
  sign_ne : c.commentPrefix ≠ []
  sign_line : '\n' ∉ c.commentPrefix
  wide : (c.commentPrefix.length : Int) < c.width
  fill_ne : c.separatorChar ≠ []
  fill : ∀ x ∈ c.separatorChar, x ∈ separatorChars

structure Ruled (c : Config) : Prop where
  wide : (c.commentPrefix.length : Int) < c.width
  fill_ne : c.separatorChar ≠ []
  fill : ∀ x ∈ c.separatorChar, x ∈ separatorChars

theorem Framed.ruled {c : Config} (h : c.Framed) : c.Ruled := ⟨h.wide, h.fill_ne, h.fill⟩

structure Writable (c : Config) : Prop extends Framed c where
  name_nonneg : 0 ≤ c.nameColumn
  email_nonneg : 0 ≤ c.emailColumn
  url_nonneg : 0 ≤ c.licenseUrlColumn
  maintainer_nonneg : 0 ≤ c.maintainerColumn
  license_line : '\n' ∉ c.spdxLicense
  url_line : '\n' ∉ c.licenseUrl
  maintainer_line : '\n' ∉ c.maintainerEmail

structure Readable (c : Config) : Prop extends Writable c where
  name_le_email : c.nameColumn ≤ c.emailColumn
  credits : 1 ≤ c.maxContributors

/-- The layout of a header that is read back as a whole. -/
structure Usable (c : Config) : Prop extends Framed c where
  name_nonneg : 0 ≤ c.nameColumn
  name_le_email : c.nameColumn ≤ c.emailColumn
  url_nonneg : 0 ≤ c.licenseUrlColumn
  url_le_maintainer : c.licenseUrlColumn ≤ c.maintainerColumn
  credits : 1 ≤ c.maxContributors

/-- The license of a header that is read back as a whole. -/
structure Licensed (c : Config) : Prop where
  license : Text.Word c.spdxLicense
  url : ∃ rest, rest ≠ [] ∧
    (c.licenseUrl = "http://".toList ++ rest ∨ c.licenseUrl = "https://".toList ++ rest)
  url_solid : ∀ x ∈ c.licenseUrl, Text.isBlank x = false
  maintainer : c.maintainerEmail = [] ∨ Header.Address c.maintainerEmail

theorem Licensed.url_word {c : Config} (h : c.Licensed) : Text.Word c.licenseUrl := by
  refine ⟨fun hnil => ?_, h.url_solid⟩
  obtain ⟨rest, -, hurl | hurl⟩ := h.url <;> simp [hnil] at hurl

theorem Usable.readable {c : Config} (h : c.Usable) (hl : c.Licensed) : c.Readable where
  toFramed := h.toFramed
  name_nonneg := h.name_nonneg
  email_nonneg := Int.le_trans h.name_nonneg h.name_le_email
  url_nonneg := h.url_nonneg
  maintainer_nonneg := Int.le_trans h.url_nonneg h.url_le_maintainer
  license_line := hl.license.line
  url_line := hl.url_word.line
  maintainer_line := by
    rcases hl.maintainer with hm | hm
    · simp [hm]
    · exact hm.word.line
  name_le_email := h.name_le_email
  credits := h.credits

end Config

namespace Contributor

/-- What a header can credit: a name that is none of the words other lines begin with, and an
address. -/
structure Creditable (p : Contributor) : Prop where
  name : Header.Name p.name
  not_copyright : Text.dropIgnoringCase? "Copyright" p.name = none
  not_license : Text.dropIgnoringCase? "SPDX-License-Identifier" p.name = none
  email : Header.Address p.email

/-- The columns leave two blanks between the name and the address, also behind a range of years. -/
structure Fits (c : Config) (p : Contributor) : Prop extends Creditable p where
  room : (p.name.length : Int) + 2 ≤ c.emailColumn - max c.nameColumn (c.commentPrefix.length + 25)

instance (p : Contributor) : Decidable p.Creditable :=
  decidable_of_iff (Header.Name p.name ∧ Text.dropIgnoringCase? "Copyright" p.name = none ∧
      Text.dropIgnoringCase? "SPDX-License-Identifier" p.name = none ∧ Header.Address p.email)
    ⟨fun ⟨hn, hc, hl, he⟩ => ⟨hn, hc, hl, he⟩,
      fun h => ⟨h.name, h.not_copyright, h.not_license, h.email⟩⟩

instance (c : Config) (p : Contributor) : Decidable (p.Fits c) :=
  decidable_of_iff (p.Creditable ∧
      (p.name.length : Int) + 2 ≤ c.emailColumn - max c.nameColumn (c.commentPrefix.length + 25))
    ⟨fun ⟨hp, hr⟩ => ⟨hp, hr⟩, fun h => ⟨h.toCreditable, h.room⟩⟩

structure OneLine (p : Contributor) : Prop where
  name : '\n' ∉ p.name
  email : '\n' ∉ p.email

instance (p : Contributor) : Decidable p.OneLine :=
  decidable_of_iff ('\n' ∉ p.name ∧ '\n' ∉ p.email) ⟨fun ⟨hn, he⟩ => ⟨hn, he⟩,
    fun h => ⟨h.name, h.email⟩⟩

theorem Creditable.oneLine {p : Contributor} (h : p.Creditable) : p.OneLine :=
  ⟨h.name.line, h.email.word.line⟩

end Contributor

namespace License

theorem line_knownPages : ∀ x ∈ knownPages, '\n' ∉ x.2.toList := by
  simp only [knownPages, List.forall_mem_cons, List.not_mem_nil, false_implies,
    implies_true, and_true]
  and_intros
  all_goals exact Text.not_mem_ofList (by decide)

theorem line_page {license : Text} (h : '\n' ∉ license) : '\n' ∉ page license := by
  rw [page]
  split_ifs
  · simp
  · cases hfind : knownPages.find? (·.1.toList = license) with
    | none =>
      have hfront : '\n' ∉ "https://spdx.org/licenses/".toList := Text.not_mem_ofList (by decide)
      have hback : '\n' ∉ ".html".toList := Text.not_mem_ofList (by decide)
      simp only [List.mem_append, not_or]
      exact ⟨⟨hfront, h⟩, hback⟩
    | some x => exact line_knownPages x (List.mem_of_find?_eq_some hfind)

end License

namespace Config

def standard (license : Text) (limit : Option Int) : Config :=
  (Draft.defaults.setAll [.spdxLicense (some license), .maxContributors limit]).filled

variable {license : Text} {limit : Option Int}

@[simp]
theorem standard_commentPrefix : (standard license limit).commentPrefix = ['/', '/'] := rfl

@[simp]
theorem standard_width : (standard license limit).width = 100 := rfl

@[simp]
theorem standard_separatorChar : (standard license limit).separatorChar = ['-'] := rfl

@[simp]
theorem standard_nameColumn : (standard license limit).nameColumn = 40 := rfl

@[simp]
theorem standard_emailColumn : (standard license limit).emailColumn = 65 := rfl

@[simp]
theorem standard_licenseUrlColumn : (standard license limit).licenseUrlColumn = 40 := rfl

@[simp]
theorem standard_maintainerColumn : (standard license limit).maintainerColumn = 75 := rfl

@[simp]
theorem standard_maintainerEmail : (standard license limit).maintainerEmail = [] := rfl

theorem standard_readable (hlicense : '\n' ∉ license)
    (hlimit : 1 ≤ (standard license limit).maxContributors) :
    (standard license limit).Readable where
  sign_ne := by simp
  sign_line := by simp
  wide := by simp
  fill_ne := Draft.filled_separatorChar_ne_nil _
  fill := by simp [separatorChars]
  name_nonneg := by simp
  email_nonneg := by simp
  url_nonneg := by simp
  maintainer_nonneg := by simp
  license_line := hlicense
  url_line := License.line_page hlicense
  maintainer_line := by simp
  name_le_email := by simp
  credits := hlimit

end Config

section Shell

def Config.shell : Config :=
  (Draft.defaults.setAll [.commentPrefix (some ['#']), .spdxLicense (some "MIT".toList),
    .maintainerEmail (some "team@example.com".toList), .maxContributors (some 2)]).filled

def Contributor.jane : Contributor := ⟨"Jane Doe".toList, "jane@example.com".toList⟩

def Contributor.john : Contributor := ⟨"John Roe".toList, "john@example.com".toList⟩

theorem Config.shell_usable : Config.shell.Usable where
  sign_ne := by decide
  sign_line := by decide
  wide := by decide
  fill_ne := Draft.filled_separatorChar_ne_nil _
  fill := Text.forall_mem_of_all (by decide)
  name_nonneg := by decide
  name_le_email := by decide
  url_nonneg := by decide
  url_le_maintainer := by decide
  credits := by decide

theorem Config.shell_licensed : Config.shell.Licensed where
  license := by decide
  url := ⟨"opensource.org/licenses/MIT".toList, by decide, by decide +kernel⟩
  url_solid := (show Text.Word Config.shell.licenseUrl by decide).solid
  maintainer := Or.inr (by decide)

theorem Config.shell_readable : Config.shell.Readable :=
  Config.shell_usable.readable Config.shell_licensed

theorem Contributor.jane_fits : Contributor.jane.Fits Config.shell := by decide

theorem Contributor.john_fits : Contributor.john.Fits Config.shell := by decide

end Shell
end Masthead
