import LiveSchema.CommandLine.Commands

/-!
# LiveSchema.CommandLine.Paths

Which files and directories a command looks at, so that they can be fetched before it runs.
-/

namespace LiveSchema.CommandLine

/-- The paths that the arguments name. -/
def Invocation.paths : Invocation → List String
  | .reload options => [options.schema] ++ options.config.toList
  | .hierarchy schema _ _ => [schema]
  | .ledger path _ => [path]
  | .version => []
  | .programVersion => []

/-- The directory whose settings a command opens, once the files that the arguments name are known.
-/
def Invocation.directory? (w : Workspace) (env : Environment) : Invocation → Option String
  | .reload options => (configure w env options).toOption.bind ledgerDirectory?
  | .ledger path _ => some path
  | _ => none

/-- The paths that opening the settings of a directory looks at. -/
def directoryPaths (directory : String) : List String :=
  [SettingsDirectory.blobDirectory, SettingsDirectory.layoutFile, SettingsDirectory.logFile].map
    (Path.join directory)

/-- The directories of which the entries are looked at when the settings of a directory are opened,
and which of their entries. -/
def listedDirectories (directory : String) : List (String × (String → Bool)) :=
  [(directory, SettingsDirectory.isSummary),
    (Path.join directory SettingsDirectory.blobDirectory,
      fun name => (SettingsDirectory.blobPosition? name).isSome)]

end LiveSchema.CommandLine
