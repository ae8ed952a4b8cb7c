import Linewise.Ini
import Linewise.Json.Decode
import Linewise.Json5.Value
import Linewise.Ron.Value
import Linewise.Toml.Document
import Linewise.Yaml.Document

/-!
# Settings files

A settings file is written in the format that the ending of its name says. What
it gives is a table at the top, whose keys lead to the settings.
-/

namespace Linewise

/-- The format of a settings file. -/
inductive FileFormat where
  | toml
  | json
  | yaml
  | ini
  | ron
  | json5
  deriving DecidableEq, Repr

/-- A settings file that was found. -/
structure SettingsFile where
  format : FileFormat
  text : String
  deriving DecidableEq, Repr

/-- The value that a piece of data gives. -/
def SettingValue.ofDatum : Datum → SettingValue
  | .nothing => .nothing
  | .boolean on => .boolean on
  | .integer n => .integer n
  | .number x => .number x
  | .text s => .text s
  | .list _ => .list
  | .table fields => .table ((fields.map Prod.fst).foldl addKey [])

/-- What data gives, which must be a table. Of fields with the same key the last counts. -/
def Entries.ofDatum? : Datum → Option Entries
  | .table fields => some <| fields.foldl (fun entries (key, value) =>
      entries.filter (·.1 ≠ key) ++ [(key, .ofDatum value)]) []
  | _ => none

namespace FileFormat

/-- All formats, in the order in which files are looked for. -/
def all : List FileFormat := [.toml, .json, .yaml, .ini, .ron, .json5]

/-- The endings of the names of files in the format. -/
def endings : FileFormat → List String
  | .toml => [".toml"]
  | .json => [".json"]
  | .yaml => [".yaml", ".yml"]
  | .ini => [".ini"]
  | .ron => [".ron"]
  | .json5 => [".json5"]

/-- The formats with each of their endings. -/
def allEndings : List (FileFormat × String) :=
  all.flatMap fun format => format.endings.map (format, ·)

/-- Reads a text in the format. -/
def read (format : FileFormat) (text : String) : Option Entries :=
  match format with
  | .toml => Toml.parse? text
  | .json => (Json.parse? text).bind Entries.ofDatum?
  | .yaml => (Yaml.parse? text).bind Entries.ofDatum?
  | .ini => (Ini.parse? text).bind Entries.ofDatum?
  | .ron => (Ron.parse? text).bind Entries.ofDatum?
  | .json5 => (Json5.parse? text).bind Entries.ofDatum?

end FileFormat

/-- What a settings file gives. A byte order mark at its start does not count. -/
def SettingsFile.entries? (file : SettingsFile) : Option Entries :=
  file.format.read (String.ofList (Read.withoutMark file.text.toList))

end Linewise
