import Linewise.Command.Arguments
import Linewise.Command.Files
import Linewise.Json.Encode
import Linewise.Settings.Basic

/-!
# Running a command

A command reads its settings and its files, compares or merges, and answers with
an exit code and what it prints. It exits with 0 on success, 1 if a merge leaves
conflicts, and 2 if it cannot be carried out, and then prints nothing.
-/

namespace Linewise.Command

/-- What a command answers. -/
structure Output where
  /-- The exit code. -/
  exitCode : Nat
  /-- What is printed. -/
  stdout : String
  deriving DecidableEq, Repr

/-- Why a command could not be carried out. -/
inductive Failure where
  /-- The command line was refused. -/
  | usage (error : UsageError)
  /-- The settings could not be loaded. -/
  | settings (error : SettingsError)
  /-- A file is not there, or is not UTF-8. -/
  | unreadable (path : String)
  /-- The documents could not be merged. -/
  | refused (error : InputError)
  deriving DecidableEq, Repr

/-- The wording of a failure. -/
def Failure.message : Failure → String
  | .usage error => error.message
  | .settings error => error.message
  | .unreadable path => "cannot read " ++ path
  | .refused error => error.message

/-- The environment variable that names the settings file. -/
def configVariable : String := "LINEDIFF_CONFIG"

/-- The settings file used if there is one and none is asked for, without its ending. -/
def defaultConfig : String := "linediff"

/-- The path of the settings file of an invocation. -/
def Invocation.configPath (inv : Invocation) : String := inv.config.getD defaultConfig

/-- The places where an invocation may read a file. -/
def Invocation.locations (inv : Invocation) : List Location :=
  settingsLocations inv.configPath ++ inv.files.map Location.ofPath

/-- Loads the settings for an invocation. -/
def Invocation.settings (inv : Invocation) (files : Files)
    (environment : Environment.Variables) : Except SettingsError Settings :=
  Settings.load inv.config.isSome (files.settingsFile? inv.configPath) environment

/-- Reads a document. -/
def readDocument (files : Files) (path : String) : Except Failure Document :=
  match files.text? path with
  | some text => .ok (Document.ofText text)
  | none => .error (.unreadable path)

/-- The line that shows a fragment. -/
def fragmentLine (f : Fragment) : String :=
  let kind := match f.kind with
    | .insert => "insert"
    | .delete => "delete"
    | .modify => "modify"
  s!"{kind} {f.start₁}..{f.stop₁} {f.start₂}..{f.stop₂}\n"

/-- What `diff` prints for a patch. -/
def showPatch (json : Bool) (p : Patch) : String :=
  if json then p.toJson.pretty ++ "\n" else String.join (p.map fragmentLine)

/-- What `merge` answers for an outcome, with the names of the two sides. -/
def showOutcome (leftName rightName : String) : MergeOutcome → Output
  | .merged text => ⟨0, text⟩
  | .conflicts found => ⟨1, String.join <| found.map fun c =>
      s!"@@ merged line {c.mergedLine + 1} @@\n" ++ c.markedText leftName rightName⟩

/-- Carries out an invocation, given the files and the environment. -/
def Invocation.run (inv : Invocation) (files : Files) (environment : Environment.Variables) :
    Except Failure Output := do
  let settings ← (inv.settings files environment).mapError .settings
  let policy := inv.policy.getD settings.defaultPolicy
  let documents ← inv.files.mapM (readDocument files)
  match inv.verb, inv.files, documents with
  | .diff, _, [a, b] => return ⟨0, showPatch inv.json (compare policy settings.options a b)⟩
  | .merge, [leftName, _, rightName], [left, base, right] =>
    let outcome ← (merge policy settings.options ⟨left, base, right⟩).mapError .refused
    return showOutcome leftName rightName outcome
  | _, _, _ => throw (.usage .missingFile)

/-- What the request for the version prints. -/
def versionText : String := "linediff 0.1.0\n"

/-- What the request for help prints. -/
def helpText : String :=
  "linediff diff LEFT RIGHT [-p POLICY] [--json]\n" ++
  "    list the lines that differ between two files\n" ++
  "linediff merge LEFT BASE RIGHT [-p POLICY]\n" ++
  "    merge two files that were both made from a third\n\n" ++
  "  -c, --config FILE    take settings from FILE\n" ++
  "      --log-json       log in JSON\n" ++
  "  -p, --policy POLICY  exact, trim or ignore-whitespace\n" ++
  "      --json           list in JSON\n" ++
  "  -h, --help           print this text\n" ++
  "  -V, --version        print the version\n"

/-- Carries out a request. -/
def Request.run (files : Files) (environment : Environment.Variables) :
    Request → Except Failure Output
  | .command invocation => invocation.run files environment
  | .version => return ⟨0, versionText⟩
  | .help => return ⟨0, helpText⟩

/-- The places where a request may read a file. -/
def Request.locations : Request → List Location
  | .command invocation => invocation.locations
  | _ => []

/-- Reads a command line in an environment. -/
def readRequest (arguments : List String) (environment : Environment.Variables) :
    Except Failure Request :=
  (readArguments (environment.lookup configVariable) arguments).mapError .usage

/-- Carries out a command line. A failure exits with 2 and prints nothing. -/
def answer (files : Files) (environment : Environment.Variables) (arguments : List String) :
    Output :=
  match readRequest arguments environment >>= Request.run files environment with
  | .ok output => output
  | .error _ => ⟨2, ""⟩

end Linewise.Command
