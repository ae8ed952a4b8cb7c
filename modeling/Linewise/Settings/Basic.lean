import Linewise.Comparison
import Linewise.Settings.Environment
import Linewise.Settings.File

/-!
# Settings

Settings come in three layers: defaults, then a settings file, then environment
variables. What a later layer gives for a setting takes the place of what earlier
ones gave, and only the value that remains has to make sense. What names no
setting is passed over.
-/

namespace Linewise

/-- The settings of the program. -/
structure Settings where
  /-- Options of every comparison. -/
  options : CompareOptions := {}
  /-- The policy used where none is asked for. -/
  defaultPolicy : Policy := .exact
  /-- How much is logged. -/
  logLevel : String := "info"
  deriving DecidableEq, Repr

/-- Why settings could not be loaded. -/
inductive SettingsError where
  /-- The settings file that was asked for is not there or cannot be read. -/
  | missingFile
  /-- The settings file is not well written. -/
  | malformedFile
  /-- The value given for a setting does not suit it. -/
  | unsuitable (setting : String)
  deriving DecidableEq, Repr

/-- The wording of a failure to load settings. -/
def SettingsError.message : SettingsError → String
  | .missingFile => "the settings file cannot be read"
  | .malformedFile => "the settings file is not well written"
  | .unsuitable setting => "the value of " ++ setting ++ " does not suit it"

namespace Settings

/-- The key of `CompareOptions.threshold`. -/
def thresholdKey : String := "unimportant_line_char_count"

/-- The key of `CompareOptions.anchored`. -/
def anchoredKey : String := "smart_blend"

/-- The key of `Settings.defaultPolicy`. -/
def policyKey : String := "default_policy"

/-- The key of `Settings.logLevel`. -/
def logLevelKey : String := "log_level"

/-- The entries that give the settings. -/
def toEntries (s : Settings) : Entries :=
  [(thresholdKey, .integer s.options.threshold), (anchoredKey, .boolean s.options.anchored),
    (policyKey, .text s.defaultPolicy.name), (logLevelKey, .text s.logLevel)]

/-- A setting made from the value that entries make up for it. -/
def resolve {α : Type} (entries : Entries) (key : String) (make : SettingValue → Option α) :
    Except SettingsError α :=
  match make (entries.value key) with
  | some made => .ok made
  | none => .error (.unsuitable key)

/-- The settings that entries give. -/
def ofEntries (entries : Entries) : Except SettingsError Settings := do
  let threshold ← resolve entries thresholdKey SettingValue.toCount?
  let anchored ← resolve entries anchoredKey SettingValue.toSwitch?
  let defaultPolicy ← resolve entries policyKey SettingValue.toPolicy?
  let logLevel ← resolve entries logLevelKey SettingValue.toText?
  return ⟨⟨threshold, anchored⟩, defaultPolicy, logLevel⟩

/-- The settings that the entries of a file and the environment give over the defaults. -/
def ofLayers (entries : Entries) (environment : Environment.Variables) :
    Except SettingsError Settings :=
  ofEntries (toEntries {} ++ entries ++ Environment.entries environment)

/-- Loads settings from a settings file, if there is one, and the environment. It fails if a file is
`required` and there is none. -/
def load (required : Bool) (file : Option SettingsFile) (environment : Environment.Variables) :
    Except SettingsError Settings :=
  match file with
  | none => if required then .error .missingFile else ofLayers [] environment
  | some file => match file.entries? with
    | none => .error .malformedFile
    | some entries => ofLayers entries environment

end Settings

end Linewise
