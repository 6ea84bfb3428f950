import Masthead.Config
import Masthead.Toml

/-! The configuration that a project starts with. -/

namespace Masthead.Config

def starter (license : Option Points) : List (Text × Toml.Content) :=
  [("width".toList, .value (.integer defaultWidth)),
    ("max_contributors".toList, .value (.integer defaultMaxContributors)),
    ("contributor_selection".toList, .value (.text defaultSelection.name))] ++
  match license with
  | some (c :: rest) =>
    [("spdx_license".toList, .points (c :: rest)),
      ("license_url".toList, .points (License.pageOf (c :: rest)))]
  | _ => []

end Masthead.Config
