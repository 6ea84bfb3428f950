import Masthead.Text.Points

/-! The pages of licenses, by their SPDX identifiers. -/

namespace Masthead.License

def knownPages : List (String × String) := [
  ("MIT", "https://opensource.org/licenses/MIT"),
  ("MPL-2.0", "https://mozilla.org/MPL/2.0"),
  ("Apache-2.0", "https://www.apache.org/licenses/LICENSE-2.0"),
  ("GPL-3.0", "https://www.gnu.org/licenses/gpl-3.0.html"),
  ("GPL-3.0-only", "https://www.gnu.org/licenses/gpl-3.0.html"),
  ("GPL-3.0-or-later", "https://www.gnu.org/licenses/gpl-3.0.html"),
  ("GPL-3.0+", "https://www.gnu.org/licenses/gpl-3.0.html"),
  ("GPL-2.0", "https://www.gnu.org/licenses/old-licenses/gpl-2.0.html"),
  ("GPL-2.0-only", "https://www.gnu.org/licenses/old-licenses/gpl-2.0.html"),
  ("GPL-2.0-or-later", "https://www.gnu.org/licenses/old-licenses/gpl-2.0.html"),
  ("GPL-2.0+", "https://www.gnu.org/licenses/old-licenses/gpl-2.0.html"),
  ("LGPL-3.0", "https://www.gnu.org/licenses/lgpl-3.0.html"),
  ("LGPL-2.1", "https://www.gnu.org/licenses/old-licenses/lgpl-2.1.html"),
  ("BSD-2-Clause", "https://opensource.org/licenses/BSD-2-Clause"),
  ("BSD-3-Clause", "https://opensource.org/licenses/BSD-3-Clause"),
  ("ISC", "https://opensource.org/licenses/ISC"),
  ("Unlicense", "https://unlicense.org/"),
  ("WTFPL", "http://www.wtfpl.net/"),
  ("CC0-1.0", "https://creativecommons.org/publicdomain/zero/1.0/"),
  ("CC-BY-4.0", "https://creativecommons.org/licenses/by/4.0/"),
  ("CC-BY-SA-4.0", "https://creativecommons.org/licenses/by-sa/4.0/"),
  ("Zlib", "https://opensource.org/licenses/Zlib"),
  ("BSL-1.0", "https://www.boost.org/LICENSE_1_0.txt")
]

def registry : Text := "https://spdx.org/licenses/"

def pageEnding : Text := ".html"

/-- The page of a license: its own if it is known, its page in the registry otherwise, and nothing
for the empty identifier. -/
def page (license : Text) : Text :=
  if license.isEmpty then []
  else match knownPages.find? (·.1.toList = license) with
    | some (_, page) => page
    | none => registry ++ license ++ pageEnding

/-- The page of an identifier that may be no text; such a one is not known. -/
def pageOf (license : Points) : Points :=
  match license.text? with
  | some license => Points.ofText (page license)
  | none => Points.ofText registry ++ license ++ Points.ofText pageEnding

end Masthead.License
