import LiveSchema.Hierarchy
import LiveSchema.Report.Basic
import LiveSchema.Settings.StorageType
import LiveSchema.Text.Digits

/-!
# LiveSchema.CommandLine.Arguments

The arguments of the command line. A command follows the options that concern all commands, and its
own options follow it. An option has a long name, written after two dashes, and may have a letter,
written after one; letters can be written together. A value follows as the next argument, after an
equals sign, or right after the letter. No option may be given twice.

* `readOptions` — the options before the first argument that is none.
* `Invocation.ofArguments?` — what the user wants, if the arguments make sense.
-/

namespace LiveSchema.CommandLine

/-- An option that a command has. -/
structure OptionSpec where
  name : String
  letter : Option Char := none
  takesValue : Bool := true
  /-- Nothing after the option is looked at. -/
  isLast : Bool := false

/-- The options that were given: names and values. -/
abbrev GivenOptions := List (String × String)

/-- Whether an argument is an option and cannot be the value of one. -/
def isOption (argument : String) : Bool :=
  match argument.toList with
  | '-' :: _ :: _ => true
  | _ => false

/-- Add an option that was not given before. -/
def GivenOptions.add? (given : GivenOptions) (name value : String) : Option GivenOptions :=
  if (given.lookup name).isSome then none else some (given ++ [(name, value)])

/-- What an argument says: options, and perhaps one whose value is the next argument. -/
structure ReadArgument where
  given : GivenOptions
  /-- The option whose value is still to come. -/
  waiting : Option String := none
  isLast : Bool := false

/-- Read an option by its long name. -/
def readLong (specs : List OptionSpec) (given : GivenOptions) (text : String) :
    Option ReadArgument := do
  let name := String.ofList (text.toList.takeWhile (· != '='))
  let value := text.toList.dropWhile (· != '=')
  let spec ← specs.find? (·.name = name)
  match spec.takesValue, value with
  | true, [] => some ⟨given, some name, spec.isLast⟩
  | true, _ :: value => return ⟨← given.add? name (String.ofList value), none, spec.isLast⟩
  | false, [] => return ⟨← given.add? name "", none, spec.isLast⟩
  | false, _ :: _ => none

/-- Read options by their letters. -/
def readLetters (specs : List OptionSpec) (given : GivenOptions) : List Char → Option ReadArgument
  | [] => some ⟨given, none, false⟩
  | c :: rest => do
    let spec ← specs.find? (·.letter = some c)
    if spec.takesValue then
      match rest with
      | [] => some ⟨given, some spec.name, spec.isLast⟩
      | '=' :: value => return ⟨← given.add? spec.name (String.ofList value), none, spec.isLast⟩
      | value => return ⟨← given.add? spec.name (String.ofList value), none, spec.isLast⟩
    else
      let given ← given.add? spec.name ""
      if spec.isLast then some ⟨given, none, true⟩ else readLetters specs given rest

/-- Read the options of one argument. -/
def readArgument (specs : List OptionSpec) (given : GivenOptions) (argument : String) :
    Option ReadArgument :=
  match argument.toList with
  | '-' :: '-' :: name => readLong specs given (String.ofList name)
  | '-' :: letters => readLetters specs given letters
  | _ => none

/-- Read options up to the first argument that is none. Answers the options and the arguments from
there on. `waiting` is the option whose value the first argument has to be. -/
def readOptions (specs : List OptionSpec) (given : GivenOptions) (waiting : Option String) :
    List String → Option (GivenOptions × List String)
  | [] => if waiting.isNone then some (given, []) else none
  | argument :: rest =>
    match waiting with
    | some name =>
      if isOption argument then none
      else do readOptions specs (← given.add? name argument) none rest
    | none =>
      if argument = "--" then
        if rest.isEmpty then some (given, []) else none
      else if !isOption argument then some (given, argument :: rest)
      else do
        let read ← readArgument specs given argument
        if read.isLast then some (read.given, [])
        else readOptions specs read.given read.waiting rest

/-! ### Values -/

/-- A value that is not empty. -/
def text? (s : String) : Option String := if s.isEmpty then none else some s

/-- A report format. -/
def format? : String → Option ReportFormat
  | "table" => some .table
  | "json" => some .json
  | _ => none

/-- The levels of detail of the log. -/
def logLevels : List String := ["error", "warn", "info", "debug", "trace"]

/-- Whether a value names a level of detail, in capitals or not. -/
def isLogLevel (s : String) : Bool := logLevels.contains (String.ofList (s.toList.map Char.toLower))

/-- The value of an option that may be left out; a value that makes no sense is refused. -/
def GivenOptions.value? {α : Type} (given : GivenOptions) (name : String)
    (read : String → Option α) : Option (Option α) :=
  match given.lookup name with
  | none => some none
  | some s => (read s).map some

/-- The value of an option that has to be given. -/
def GivenOptions.required? {α : Type} (given : GivenOptions) (name : String)
    (read : String → Option α) : Option α :=
  (given.lookup name).bind read

/-! ### Commands -/

/-- What the user of the command `reload` says. -/
structure ReloadOptions where
  schema : String
  path : Option String
  storage : Option StorageType
  config : Option String
  testing : Bool
  format : ReportFormat

/-- What the user wants. -/
inductive Invocation where
  | reload (options : ReloadOptions)
  | hierarchy (schema : String) (depthLimit : Nat) (format : ReportFormat)
  | ledger (path : String) (format : ReportFormat)
  | version
  /-- The name and number of the program on one line. -/
  | programVersion

/-- The options that concern all commands. -/
def commonOptions : List OptionSpec :=
  [{ name := "verbose", letter := some 'v', takesValue := false }, { name := "log-level" }]

/-- The option for the form of a report. -/
def formatOption : OptionSpec := { name := "format", letter := some 'f' }

/-- The options of each command. -/
def commandOptions : List (String × List OptionSpec) :=
  [("reload",
      [{ name := "schema", letter := some 's' }, { name := "path", letter := some 'p' },
        { name := "storage" }, { name := "config", letter := some 'c' },
        { name := "testing", takesValue := false }, formatOption]),
    ("hierarchy",
      [{ name := "schema", letter := some 's' }, { name := "depth-cap" }, formatOption]),
    ("ledger", [{ name := "path", letter := some 'p' }, formatOption]),
    ("version", [])]

namespace Invocation

/-- What the options of a command say. -/
def ofOptions? (command : String) (given : GivenOptions) : Option Invocation := do
  let format := (← given.value? "format" format?).getD .table
  match command with
  | "reload" =>
    return .reload
      { schema := ← given.required? "schema" text?
        path := ← given.value? "path" text?
        storage := ← given.value? "storage" StorageType.ofText?
        config := ← given.value? "config" text?
        testing := (given.lookup "testing").isSome
        format := format }
  | "hierarchy" =>
    let depthLimit := (← given.value? "depth-cap" Text.natural?).getD Hierarchy.defaultDepthLimit
    return .hierarchy (← given.required? "schema" text?) depthLimit format
  | "ledger" => return .ledger (← given.required? "path" text?) format
  | "version" => return .version
  | _ => none

/-- Whether the options that concern all commands make sense. -/
def commonOptionsValid (given : GivenOptions) : Bool :=
  match given.lookup "log-level" with
  | some level => isLogLevel level
  | none => true

/-- What some arguments say, if they make sense. -/
def ofArguments? (arguments : List String) : Option Invocation := do
  let versionOption : OptionSpec :=
    { name := "version", letter := some 'V', takesValue := false, isLast := true }
  let (given, rest) ← readOptions (versionOption :: commonOptions) [] none arguments
  if !commonOptionsValid given then none
  else if (given.lookup "version").isSome then some .programVersion
  else
    match rest with
    | [] => none
    | command :: rest =>
      let specs ← commandOptions.lookup command
      let (given, rest) ← readOptions (specs ++ commonOptions) [] none rest
      if rest.isEmpty && commonOptionsValid given then ofOptions? command given else none

end Invocation

end LiveSchema.CommandLine
