import Linewise.Settings.File
import Linewise.Text.Utf8

/-!
# Files at hand

A path leads over names to a file. Several paths lead to the same place, since
`.` and empty names lead nowhere. A settings file may be asked for without the
ending of its name.
-/

namespace Linewise.Command

/-- A place in the file system. -/
structure Location where
  /-- Whether the way starts at the root, and not in the working directory. -/
  absolute : Bool
  /-- The names on the way. -/
  names : List String
  /-- Whether only a directory is meant. -/
  directory : Bool
  deriving DecidableEq, Repr

namespace Location

/-- Whether a name on the way of a path leads nowhere. -/
def isIdle (name : String) : Bool := name = "" || name = "."

/-- The place to which a path leads. -/
def ofPath (path : String) : Location :=
  let names := (path.toList.splitOn '/').map String.ofList
  ⟨names.head? = some "" && names.length ≠ 1, names.filter (!isIdle ·),
    names.getLast?.any isIdle⟩

/-- A path to the place. -/
def toPath (l : Location) : String :=
  (if l.absolute then "/" else if l.names.isEmpty then "." else "") ++
    "/".intercalate l.names ++ (if l.directory then "/" else "")

/-- Whether the last name on the way has a given ending and is more than that. -/
def hasEnding (l : Location) (ending : String) : Bool :=
  l.names.getLast?.any fun name => name.endsWith ending && name != ending

/-- The file with an ending added to the last name on the way. Where a directory is meant there is
none. -/
def withEnding? (l : Location) (ending : String) : Option Location := do
  let name ← l.names.getLast?
  if l.directory || name = ".." then none
  else some ⟨l.absolute, l.names.dropLast ++ [name ++ ending], false⟩

end Location

/-- The files at hand, each with its bytes. -/
abbrev Files := List (Location × ByteArray)

namespace Files

/-- The text of a file, if it is there and is UTF-8. -/
def text? (files : Files) (path : String) : Option String :=
  (files.lookup (Location.ofPath path)).bind String.fromUTF8?

/-- The settings file that a path stands for: the file to which it leads, if there is one, which
then must have the ending of a format, and else the first found with such an ending added. -/
def settingsFile? (files : Files) (path : String) : Option SettingsFile :=
  let location := Location.ofPath path
  match files.lookup location with
  | some bytes =>
    (FileFormat.allEndings.find? fun (_, ending) => location.hasEnding ending).map
      fun (format, _) => ⟨format, decodeLossy bytes⟩
  | none => FileFormat.allEndings.findSome? fun (format, ending) => do
    let bytes ← files.lookup (← location.withEnding? ending)
    return ⟨format, decodeLossy bytes⟩

end Files

/-- The places where the settings file for which a path stands may be found. -/
def settingsLocations (path : String) : List Location :=
  let location := Location.ofPath path
  location :: FileFormat.allEndings.filterMap fun (_, ending) => location.withEnding? ending

end Linewise.Command
