import Linewise.Policy

/-!
# Command lines

A command line names one of two commands, `diff` or `merge`, its files and
options. Options may stand anywhere before `--`. A long option takes its value
after `=` or from the next argument; a short one also right after its letter.
Arguments are read from left to right, and the first fault, or the first request
for help or the version, settles the outcome.
-/

namespace Linewise.Command

/-- A command. -/
inductive Verb where
  | diff
  | merge
  deriving DecidableEq, Repr

/-- An option of the program or of a command. -/
inductive Switch where
  | config
  | logJson
  | policy
  | json
  | version
  | help
  deriving DecidableEq, Repr

/-- Why a command line was refused. -/
inductive UsageError where
  | unknownArgument (argument : String)
  | missingValue (switch : Switch)
  | unexpectedValue (switch : Switch)
  | repeated (switch : Switch)
  | unknownPolicy (value : String)
  | unknownCommand (name : String)
  | missingCommand
  | emptyPath
  | missingFile
  deriving DecidableEq, Repr

/-- What the arguments on one level, before or after the command's name, say. -/
structure Collected where
  config : Option String := none
  logJson : Bool := false
  policy : Option Policy := none
  json : Bool := false
  files : List String := []
  deriving DecidableEq, Repr

/-- A command line that was understood. -/
structure Invocation where
  verb : Verb
  /-- The files of the command, as many as `Verb.arity` says. -/
  files : List String
  /-- The policy that was asked for. -/
  policy : Option Policy
  /-- Whether `diff` is to print JSON. -/
  json : Bool
  /-- The settings file that was asked for. -/
  config : Option String
  /-- Whether log lines are to be JSON. -/
  logJson : Bool
  deriving DecidableEq, Repr

/-- What a command line asks for. -/
inductive Request where
  | command (invocation : Invocation)
  | version
  | help
  deriving DecidableEq, Repr

namespace Verb

/-- The command's name. -/
def name : Verb → String
  | .diff => "diff"
  | .merge => "merge"

/-- The command of a name. -/
def ofName? (name : String) : Option Verb := [diff, merge].find? (·.name == name)

/-- Number of files that the command takes. -/
def arity : Verb → Nat
  | .diff => 2
  | .merge => 3

end Verb

namespace Switch

/-- All options. -/
def all : List Switch := [.config, .logJson, .policy, .json, .version, .help]

/-- The option's long name. -/
def longName : Switch → String
  | .config => "config"
  | .logJson => "log-json"
  | .policy => "policy"
  | .json => "json"
  | .version => "version"
  | .help => "help"

/-- The option's letter, if it has one. -/
def letter? : Switch → Option Char
  | .config => some 'c'
  | .policy => some 'p'
  | .version => some 'V'
  | .help => some 'h'
  | .logJson | .json => none

/-- Whether the option takes a value. -/
def takesValue : Switch → Bool
  | .config | .policy => true
  | _ => false

/-- Whether the option may stand before the command's name (`none`) or after that of a command. -/
def allowed (s : Switch) (verb : Option Verb) : Bool :=
  match s with
  | .config | .logJson | .help => true
  | .policy => verb.isSome
  | .json => verb == some .diff
  | .version => verb.isNone

end Switch

/-- The wording of a refusal. -/
def UsageError.message : UsageError → String
  | .unknownArgument argument => "unexpected argument '" ++ argument ++ "'"
  | .missingValue switch => "a value is required for --" ++ switch.longName
  | .unexpectedValue switch => "no value is allowed for --" ++ switch.longName
  | .repeated switch => "--" ++ switch.longName ++ " is given more than once"
  | .unknownPolicy value => "'" ++ value ++ "' is not a policy"
  | .unknownCommand name => "'" ++ name ++ "' is not a command"
  | .missingCommand => "a command is required"
  | .emptyPath => "a file name is empty"
  | .missingFile => "a file name is missing"

/-- How a policy is written on the command line: as in settings, with a dash. -/
def policyArgument (p : Policy) : String :=
  String.ofList (p.name.toList.map fun c => if c = '_' then '-' else c)

/-- The policy written by an argument. -/
def policy? (argument : String) : Option Policy := Policy.all.find? (policyArgument · == argument)

/-- The form of one argument. -/
inductive Form where
  /-- The mark after which all arguments are file names. -/
  | endOfOptions
  /-- An option, by its long name or its letter, with the value written in the same argument. -/
  | option (found : Option Switch) (attached : Option String)
  /-- A command or a file name. -/
  | plain
  deriving DecidableEq, Repr

/-- The form of an argument. A lone dash is plain. What follows the letter of an option without a
value is not read, since all such options ask for an answer at once. -/
def formOf (argument : String) : Form :=
  match argument.toList with
  | ['-', '-'] => .endOfOptions
  | '-' :: '-' :: rest =>
    let name := String.ofList (rest.takeWhile (· != '='))
    let attached := match rest.dropWhile (· != '=') with
      | '=' :: value => some (String.ofList value)
      | _ => none
    .option (Switch.all.find? (·.longName == name)) attached
  | '-' :: letter :: rest =>
    let found := Switch.all.find? (·.letter? == some letter)
    let attached := match rest with
      | [] => none
      | '=' :: value => some (String.ofList value)
      | value => some (String.ofList value)
    .option found (if found.any Switch.takesValue then attached else none)
  | _ => .plain

/-- Whether an argument can be the value of the option before it: it must not look like one. -/
def isValue (argument : String) : Bool :=
  match argument.toList with
  | '-' :: _ :: _ => false
  | _ => true

namespace Collected

/-- Records an option that takes a value. No option may be given twice on one level. -/
def setValue (c : Collected) (s : Switch) (value : String) : Except UsageError Collected :=
  match s with
  | .policy =>
    if c.policy.isSome then .error (.repeated s)
    else match policy? value with
      | some p => .ok { c with policy := some p }
      | none => .error (.unknownPolicy value)
  | _ =>
    if c.config.isSome then .error (.repeated s)
    else if value.isEmpty then .error .emptyPath
    else .ok { c with config := some value }

/-- Records an option that takes no value. -/
def setFlag (c : Collected) (s : Switch) : Except UsageError Collected :=
  match s with
  | .json => if c.json then .error (.repeated s) else .ok { c with json := true }
  | _ => if c.logJson then .error (.repeated s) else .ok { c with logJson := true }

/-- Records a file name for a command. -/
def addFile (c : Collected) (verb : Verb) (file : String) : Except UsageError Collected :=
  if verb.arity ≤ c.files.length then .error (.unknownArgument file)
  else if file.isEmpty then .error .emptyPath
  else .ok { c with files := c.files ++ [file] }

end Collected

/-- The request of a command whose arguments `after` its name, and those `before` it, are all
read. What stands after the name counts more, and both more than the environment's choice of a
settings file. That choice makes up for an option that is missing on either level, and there it
must not be empty. -/
def request (chosen : Option String) (before after : Collected) (verb : Verb) :
    Except UsageError Request :=
  if after.files.length < verb.arity then .error .missingFile
  else if chosen = some "" ∧ (before.config.isNone ∨ after.config.isNone) then .error .emptyPath
  else .ok <| .command ⟨verb, after.files, after.policy, after.json,
    (after.config.or before.config).or chosen, before.logJson || after.logJson⟩

/-- Whether an option asks for an answer at once. -/
def Switch.answer? : Switch → Option Request
  | .version => some .version
  | .help => some .help
  | _ => none

/-- Reads file names after the mark that ends options. -/
def readFiles (chosen : Option String) (before : Collected) (verb : Verb) (c : Collected) :
    List String → Except UsageError Request
  | [] => request chosen before c verb
  | file :: rest => do readFiles chosen before verb (← c.addFile verb file) rest

/-- Reads the arguments after the name of a command. -/
def readAfter (chosen : Option String) (before : Collected) (verb : Verb) (c : Collected) :
    List String → Except UsageError Request
  | [] => request chosen before c verb
  | argument :: rest =>
    match formOf argument with
    | .endOfOptions => readFiles chosen before verb c rest
    | .plain => do readAfter chosen before verb (← c.addFile verb argument) rest
    | .option none _ => .error (.unknownArgument argument)
    | .option (some s) attached =>
      if !s.allowed (some verb) then .error (.unknownArgument argument)
      else match s.takesValue, attached, s.answer?, rest with
        | false, some _, _, _ => .error (.unexpectedValue s)
        | false, none, some answer, _ => .ok answer
        | false, none, none, rest => do readAfter chosen before verb (← c.setFlag s) rest
        | true, some value, _, rest => do
          readAfter chosen before verb (← c.setValue s value) rest
        | true, none, _, value :: rest =>
          if isValue value then do readAfter chosen before verb (← c.setValue s value) rest
          else .error (.missingValue s)
        | true, none, _, [] => .error (.missingValue s)

/-- Reads the arguments up to the name of a command and after it. -/
def readBefore (chosen : Option String) (c : Collected) : List String → Except UsageError Request
  | [] => .error .missingCommand
  | argument :: rest =>
    match formOf argument with
    | .endOfOptions => .error .missingCommand
    | .plain =>
      match Verb.ofName? argument with
      | some verb => readAfter chosen c verb {} rest
      | none =>
        if argument = "help" ∧ rest.all (fun name => (Verb.ofName? name).isSome) ∧
            rest.length ≤ 1 then .ok .help
        else .error (.unknownCommand argument)
    | .option none _ => .error (.unknownArgument argument)
    | .option (some s) attached =>
      if !s.allowed none then .error (.unknownArgument argument)
      else match s.takesValue, attached, s.answer?, rest with
        | false, some _, _, _ => .error (.unexpectedValue s)
        | false, none, some answer, _ => .ok answer
        | false, none, none, rest => do readBefore chosen (← c.setFlag s) rest
        | true, some value, _, rest => do readBefore chosen (← c.setValue s value) rest
        | true, none, _, value :: rest =>
          if isValue value then do readBefore chosen (← c.setValue s value) rest
          else .error (.missingValue s)
        | true, none, _, [] => .error (.missingValue s)

/-- Reads a command line, where `chosen` is the settings file that the environment names. -/
def readArguments (chosen : Option String) (arguments : List String) :
    Except UsageError Request :=
  readBefore chosen {} arguments

end Linewise.Command
