import Linewise.Settings.KeyPath

/-!
# Entries

Entries give values under keys, one after the other. Those that lead to one
setting make up its value.
-/

namespace Linewise

/-- Keys with the values given under them, in order. -/
abbrev Entries := List (String × SettingValue)

namespace Entries

/-- The value that the entries make up for a setting. -/
def value (entries : Entries) (setting : String) : SettingValue :=
  entries.foldl (fun value (key, given) =>
    let path := KeyPath.ofKey key
    if path.root = setting then path.put given value else value) .nothing

end Entries

end Linewise
